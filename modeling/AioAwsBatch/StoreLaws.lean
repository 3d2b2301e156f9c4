import AioAwsBatch.Store
import Mathlib.Data.List.Nodup

/-!
# The store is a map keyed by job id

Every table the store's calls build from an empty one is `WellKeyed`: each row
has a truthy `job_id`, no two rows share one, and the `doc_id`s are distinct.
On such a table `save`, `removeByJobId` and `removeByJobName` act as the
operations of a finite map from job ids to rows: `findByJobId_save_self` (a
saved row is found), `findByJobId_save_of_ne` (the other ids are untouched),
`findByJobId_removeByJobId_self` and `findByJobId_removeByJobId_of_ne`,
`findByJobName_removeByJobName_self` and `removeByJobName_keeps_others`.
`store_refines_map` collects them for every sequence of calls (`StoreOp`).
-/

namespace AioAwsBatch

/-! ## Table operations -/

namespace Table

variable {data : DbData} {k k' : Option String}

@[simp] theorem replaceIf_docId (cond : DbData → Bool) (doc : Document) :
    (replaceIf cond data doc).docId = doc.docId := by
  unfold replaceIf; split <;> rfl

/-- Updating the rows keyed `k` to `data`, itself keyed `k`, keeps every row's key. -/
theorem replaceIf_jobId (hd : data.jobId = k) (doc : Document) :
    (replaceIf (·.jobId == k) data doc).data.jobId = doc.data.jobId := by
  unfold replaceIf; split
  · rename_i h; exact hd.trans (beq_iff_eq.mp h).symm
  · rfl

theorem find?_map_replaceIf_self (hd : data.jobId = k) :
    ∀ l : List Document, (l.map (replaceIf (·.jobId == k) data)).find? (·.data.jobId == k) =
      (l.find? (·.data.jobId == k)).map fun doc => ⟨doc.docId, data⟩
  | [] => rfl
  | x :: l => by
    by_cases hx : x.data.jobId = k
    · simp [replaceIf, hx, hd]
    · simp [replaceIf, hx, find?_map_replaceIf_self hd l]

/-- The rows `update` rewrites are keyed `k`, so a search for another key finds
what it found before. -/
theorem find?_map_replaceIf_of_ne (hd : data.jobId = k) (hne : k' ≠ k) :
    ∀ l : List Document, (l.map (replaceIf (·.jobId == k) data)).find? (·.data.jobId == k') =
      l.find? (·.data.jobId == k')
  | [] => rfl
  | x :: l => by
    have ih := find?_map_replaceIf_of_ne hd hne l
    by_cases hx : x.data.jobId = k
    · simp [replaceIf, hx, hd, Ne.symm hne, ih]
    · have hr : replaceIf (·.jobId == k) data x = x := by simp [replaceIf, hx]
      simp only [List.map_cons, hr, List.find?_cons, ih]

theorem map_replaceIf_of_none {cond : DbData → Bool} (l : List Document)
    (h : l.any (cond ·.data) = false) : l.map (replaceIf cond data) = l := by
  conv => rhs; rw [← List.map_id l]
  refine List.map_congr_left fun x hx => ?_
  simp [replaceIf, List.any_eq_false.mp h x hx]

/-- `upsert` updates the matching documents in place, or appends a new one. -/
theorem upsert_fst (t : Table) (data : DbData) (cond : DbData → Bool) :
    (t.upsert data cond).1 =
      if t.docs.any (cond ·.data) then ⟨t.docs.map (replaceIf cond data), t.lastId⟩
      else ⟨t.docs ++ [⟨t.lastId + 1, data⟩], t.lastId + 1⟩ := by
  by_cases h : t.docs.any (cond ·.data)
  · have hne : ((t.search cond).map (·.docId)).isEmpty = false := by
      obtain ⟨x, hx, hc⟩ := List.any_eq_true.mp h
      simp only [search, List.isEmpty_eq_false_iff_exists_mem, List.mem_map, List.mem_filter]
      exact ⟨x.docId, x, ⟨hx, hc⟩, rfl⟩
    simp only [upsert, update, hne, h]
    rfl
  · have he : ((t.search cond).map (·.docId)).isEmpty = true := by
      simpa [search, List.filter_eq_nil_iff] using List.any_eq_false.mp (by simpa using h)
    simp only [upsert, update, he, h, insert, map_replaceIf_of_none t.docs (by simpa using h)]
    rfl

/-- A search finds what it found before a removal that keeps every document it
would find. -/
theorem find?_filter_of_imp {p q : Document → Bool} :
    ∀ l : List Document, (∀ x ∈ l, p x = true → q x = true) → (l.filter q).find? p = l.find? p
  | [], _ => rfl
  | x :: l, h => by
    have ih := find?_filter_of_imp l fun y hy => h y (List.mem_cons_of_mem _ hy)
    by_cases hq : q x
    · by_cases hp : p x <;> simp [List.filter_cons, hq, hp, ih]
    · have hp : p x = false := by
        by_contra hp; exact hq (h x (List.mem_cons_self _ _) (by simpa using hp))
      simp [List.filter_cons, hq, hp, ih]

end Table

/-! ## Well-keyed tables -/

namespace AWSBatchDB

/-- What every table the store's calls build satisfies: each row has a truthy
`job_id`, no two rows share one, and the `doc_id`s are distinct and at most the
last one handed out. -/
structure WellKeyed (db : AWSBatchDB) : Prop where
  truthy_jobId : ∀ doc ∈ db.jobsDb.docs, truthy doc.data.jobId = true
  jobId_nodup : (db.jobsDb.docs.map (·.data.jobId)).Nodup
  docId_nodup : (db.jobsDb.docs.map (·.docId)).Nodup
  docId_le : ∀ doc ∈ db.jobsDb.docs, doc.docId ≤ db.jobsDb.lastId

theorem wellKeyed_empty : empty.WellKeyed :=
  ⟨by simp [empty], by simp [empty], by simp [empty], by simp [empty]⟩

theorem WellKeyed.save {db : AWSBatchDB} (hw : db.WellKeyed) (job : AWSBatchJob) :
    (db.save job).1.WellKeyed := by
  unfold AWSBatchDB.save
  split
  · rename_i ht
    rw [Table.upsert_fst]
    split
    · have hj := @Table.replaceIf_jobId job.dbData job.jobId rfl
      refine ⟨fun doc hdoc => ?_, ?_, ?_, ?_⟩
      · obtain ⟨x, hx, rfl⟩ := List.mem_map.mp hdoc
        unfold Table.replaceIf; split
        · exact ht
        · exact hw.truthy_jobId x hx
      · simpa [List.map_map, Function.comp_def, hj] using hw.jobId_nodup
      · simpa [List.map_map, Function.comp_def] using hw.docId_nodup
      · intro doc hdoc
        obtain ⟨x, hx, rfl⟩ := List.mem_map.mp hdoc
        simpa using hw.docId_le x hx
    · rename_i hn
      have hn' : ∀ x ∈ db.jobsDb.docs, x.data.jobId ≠ job.jobId :=
        fun x hx h => hn (List.any_eq_true.mpr ⟨x, hx, by simp [h]⟩)
      refine ⟨fun doc hdoc => ?_, ?_, ?_, fun doc hdoc => ?_⟩
      · rcases List.mem_append.mp hdoc with h | h
        · exact hw.truthy_jobId doc h
        · exact List.mem_singleton.mp h ▸ ht
      · rw [List.map_append, List.map_singleton, ← List.concat_eq_append]
        refine hw.jobId_nodup.concat fun hm => ?_
        obtain ⟨x, hx, h⟩ := List.mem_map.mp hm
        exact hn' x hx h
      · rw [List.map_append, List.map_singleton, ← List.concat_eq_append]
        refine hw.docId_nodup.concat fun hm => ?_
        obtain ⟨x, hx, h⟩ := List.mem_map.mp hm
        have := hw.docId_le x hx
        dsimp only at h
        omega
      · rcases List.mem_append.mp hdoc with h | h
        · exact Nat.le_succ_of_le (hw.docId_le doc h)
        · rw [List.mem_singleton.mp h]
  · exact hw

theorem WellKeyed.remove {db : AWSBatchDB} (hw : db.WellKeyed) (docIds : List Nat) :
    (⟨db.jobsDb.remove docIds⟩ : AWSBatchDB).WellKeyed :=
  ⟨fun doc h => hw.truthy_jobId doc (List.mem_of_mem_filter h),
    hw.jobId_nodup.sublist ((List.filter_sublist _).map _),
    hw.docId_nodup.sublist ((List.filter_sublist _).map _),
    fun doc h => hw.docId_le doc (List.mem_of_mem_filter h)⟩

theorem WellKeyed.removeByJobId {db : AWSBatchDB} (hw : db.WellKeyed) (jobId : Option String) :
    (db.removeByJobId jobId).1.WellKeyed := by
  unfold AWSBatchDB.removeByJobId
  split
  · split
    · exact hw.remove _
    · exact hw
  · exact hw

theorem WellKeyed.removeByJobName {db : AWSBatchDB} (hw : db.WellKeyed) (jobName : String) :
    (db.removeByJobName jobName).1.WellKeyed := by
  unfold AWSBatchDB.removeByJobName
  split
  · exact hw
  · split
    · split
      · exact hw
      · exact hw.remove _
    · exact hw

/-! ## The map laws -/

/-- After `save(job)`, `find_by_job_id(job.job_id)` returns the job's row. -/
theorem findByJobId_save_self (db : AWSBatchDB) {job : AWSBatchJob} (ht : truthy job.jobId = true) :
    ((db.save job).1.findByJobId job.jobId).map (·.data) = some job.dbData := by
  by_cases h : db.jobsDb.docs.any (·.data.jobId == job.jobId)
  · simp only [AWSBatchDB.save, ht, if_true, findByJobId, Table.get, Table.upsert_fst, h]
    rw [@Table.find?_map_replaceIf_self job.dbData job.jobId rfl]
    obtain ⟨x, hx⟩ := Option.isSome_iff_exists.mp (List.find?_isSome.mpr (List.any_eq_true.mp h))
    simp [hx]
  · have hn : db.jobsDb.docs.find? (·.data.jobId == job.jobId) = none :=
      List.find?_eq_none.mpr (List.any_eq_false.mp (by simpa using h))
    simp [AWSBatchDB.save, ht, findByJobId, Table.get, Table.upsert_fst, h, List.find?_append, hn]

/-- `save(job)` leaves `find_by_job_id(k)` as it was for every other `k`. -/
theorem findByJobId_save_of_ne (db : AWSBatchDB) (job : AWSBatchJob) {k : Option String}
    (hk : k ≠ job.jobId) : (db.save job).1.findByJobId k = db.findByJobId k := by
  by_cases ht : truthy job.jobId
  · by_cases h : db.jobsDb.docs.any (·.data.jobId == job.jobId)
    · simp only [AWSBatchDB.save, ht, if_true, findByJobId, Table.get, Table.upsert_fst, h]
      rw [@Table.find?_map_replaceIf_of_ne job.dbData job.jobId k rfl hk]
    · simp [AWSBatchDB.save, ht, findByJobId, Table.get, Table.upsert_fst, h, List.find?_append,
        if_neg (Ne.symm hk)]
  · simp [AWSBatchDB.save, ht]

theorem save_of_not_truthy (db : AWSBatchDB) {job : AWSBatchJob} (h : truthy job.jobId = false) :
    (db.save job).1 = db := by
  simp [AWSBatchDB.save, h]

/-- After `save(job)` exactly one row has the job's `job_id`. -/
theorem count_save (db : AWSBatchDB) (hw : db.WellKeyed) {job : AWSBatchJob}
    (ht : truthy job.jobId = true) :
    ((db.save job).1.jobsDb.all.map (·.jobId)).count job.jobId = 1 := by
  have hs := findByJobId_save_self db ht
  obtain ⟨doc, hdoc, hd⟩ := Option.map_eq_some'.mp hs
  simp only [findByJobId, ht, if_true, Table.get] at hdoc
  have hmem : job.jobId ∈ (db.save job).1.jobsDb.all.map (·.jobId) := by
    simp only [Table.all, List.map_map, List.mem_map, Function.comp_apply]
    exact ⟨doc, List.mem_of_find?_eq_some hdoc, by rw [hd]; rfl⟩
  rw [show (Option.instBEq : BEq (Option String)) = instBEqOfDecidableEq from
    lawful_beq_subsingleton _ _]
  refine List.count_eq_one_of_mem ?_ hmem
  simpa [Table.all, List.map_map, Function.comp_def] using (hw.save job).jobId_nodup

theorem findByJobId_mem {db : AWSBatchDB} {k : Option String} {doc : Document}
    (h : db.findByJobId k = some doc) : doc ∈ db.jobsDb.docs ∧ doc.data.jobId = k := by
  unfold findByJobId at h
  split at h
  · exact ⟨List.mem_of_find?_eq_some h, by simpa using List.find?_some h⟩
  · cases h

/-- After `remove_by_job_id(k)`, no row has the id `k`. -/
theorem findByJobId_removeByJobId_self (db : AWSBatchDB) (hw : db.WellKeyed) (k : Option String) :
    (db.removeByJobId k).1.findByJobId k = none := by
  unfold AWSBatchDB.removeByJobId
  split
  · split
    · rename_i doc hdoc
      obtain ⟨hmem, hk⟩ := findByJobId_mem hdoc
      simp only [findByJobId, Table.get, Table.remove, List.find?_eq_none, List.mem_filter,
        List.contains_cons, List.contains_nil, Bool.or_false, Bool.not_eq_true', beq_eq_false_iff_ne,
        ite_eq_right_iff]
      rintro - x ⟨hx, hne⟩ hxk
      exact hne (congrArg Document.docId (List.inj_on_of_nodup_map hw.jobId_nodup hx hmem
        ((by simpa using hxk : x.data.jobId = k).trans hk.symm)))
    · rename_i hnone; exact hnone
  · rename_i h; simp [findByJobId, h]

/-- `remove_by_job_id(k)` leaves every other id as it was. -/
theorem findByJobId_removeByJobId_of_ne (db : AWSBatchDB) (hw : db.WellKeyed) {k k' : Option String}
    (hne : k' ≠ k) : (db.removeByJobId k).1.findByJobId k' = db.findByJobId k' := by
  unfold AWSBatchDB.removeByJobId
  split
  · split
    · rename_i doc hdoc
      obtain ⟨hmem, hk⟩ := findByJobId_mem hdoc
      simp only [findByJobId, Table.get, Table.remove]
      congr 1
      refine Table.find?_filter_of_imp _ fun x hx hxk => ?_
      simp only [List.contains_cons, List.contains_nil, Bool.or_false, Bool.not_eq_true',
        Bool.not_eq_eq_eq_not, Bool.not_true, beq_eq_false_iff_ne, ne_eq]
      intro hid
      have := List.inj_on_of_nodup_map hw.docId_nodup hx hmem hid
      subst this
      exact hne ((by simpa using hxk : x.data.jobId = k').symm.trans hk)
    · rfl
  · rfl

/-- `remove_by_job_name(n)` removes the documents a search for `n` finds. -/
theorem removeByJobName_fst (db : AWSBatchDB) (n : String) :
    (db.removeByJobName n).1 = if n.isEmpty then db
      else ⟨db.jobsDb.remove ((db.jobsDb.search (·.jobName == n)).map (·.docId))⟩ := by
  by_cases h : n.isEmpty
  · simp [removeByJobName, h]
  · by_cases he : (db.jobsDb.search (·.jobName == n)).isEmpty
    · simp only [removeByJobName, findByJobName, h, he, Bool.false_eq_true, if_false, if_true]
      simp only [List.isEmpty_iff] at he
      simp [he, Table.remove]
    · simp [removeByJobName, findByJobName, h, he]

/-- After `remove_by_job_name(n)`, `find_by_job_name(n)` finds nothing. -/
theorem findByJobName_removeByJobName_self (db : AWSBatchDB) (n : String) :
    ((db.removeByJobName n).1.findByJobName n).getD [] = [] := by
  rw [removeByJobName_fst]
  by_cases h : n.isEmpty
  · simp [findByJobName, h]
  · simp only [findByJobName, h, Bool.false_eq_true, if_false, Option.getD_some, Table.search,
      Table.remove, List.filter_filter, List.filter_eq_nil_iff, Bool.and_eq_true, not_and]
    intro x hx hxn
    simpa using ⟨x, hx, by simpa using hxn, rfl⟩

/-- `remove_by_job_name(n)` keeps every row with another name. -/
theorem removeByJobName_keeps_others (db : AWSBatchDB) (hw : db.WellKeyed) (n : String) :
    (db.removeByJobName n).1.jobsDb.docs.filter (·.data.jobName != n) =
      db.jobsDb.docs.filter (·.data.jobName != n) := by
  rw [removeByJobName_fst]
  split
  · rfl
  · simp only [Table.remove, List.filter_filter]
    refine List.filter_congr fun x hx => ?_
    by_cases hxn : x.data.jobName = n
    · simp [hxn]
    · have : ((db.jobsDb.search (·.jobName == n)).map (·.docId)).contains x.docId = false := by
        simp only [List.contains_eq_any_beq, List.any_eq_false, List.mem_map, Table.search,
          List.mem_filter, beq_iff_eq]
        rintro _ ⟨y, ⟨hy, hyn⟩, rfl⟩ hid
        have := List.inj_on_of_nodup_map hw.docId_nodup hx hy hid
        subst this
        exact hxn (by simpa using hyn)
      simp only [this, Bool.not_false, Bool.and_true]

/-! ## Every sequence of calls -/

/-- A call a program makes on the store. -/
inductive StoreOp where
  | save (job : AWSBatchJob)
  | removeByJobId (jobId : Option String)
  | removeByJobName (jobName : String)

/-- The store after the call. -/
def StoreOp.apply : StoreOp → AWSBatchDB → AWSBatchDB
  | .save job, db => (db.save job).1
  | .removeByJobId k, db => (db.removeByJobId k).1
  | .removeByJobName n, db => (db.removeByJobName n).1

/-- The store after the calls, from `db`. -/
def runOps (db : AWSBatchDB) (ops : List StoreOp) : AWSBatchDB :=
  ops.foldl (fun db op => op.apply db) db

theorem WellKeyed.apply {db : AWSBatchDB} (hw : db.WellKeyed) : ∀ op : StoreOp, (op.apply db).WellKeyed
  | .save job => hw.save job
  | .removeByJobId k => hw.removeByJobId k
  | .removeByJobName n => hw.removeByJobName n

theorem WellKeyed.runOps {db : AWSBatchDB} (hw : db.WellKeyed) :
    ∀ ops, (db.runOps ops).WellKeyed
  | [] => hw
  | op :: ops => (hw.apply op).runOps ops

/-- The table refines a finite map keyed by job id: from an empty table, after
any sequence of calls, every row has a truthy `job_id` and no two share one; a
`save` is found under its id, and leaves every other id unchanged (so saving
twice leaves one row); a save without a `job_id` changes nothing; a removal by
id or by name removes exactly those rows. -/
theorem store_refines_map (ops : List StoreOp) (job : AWSBatchJob) (k k' : Option String)
    (n : String) :
    let db := empty.runOps ops
    db.WellKeyed ∧
    (truthy job.jobId = true →
      ((db.save job).1.findByJobId job.jobId).map (·.data) = some job.dbData ∧
      (k ≠ job.jobId → (db.save job).1.findByJobId k = db.findByJobId k) ∧
      ((((db.save job).1.save job).1.jobsDb.all.map (·.jobId)).count job.jobId = 1)) ∧
    (job.jobId = none → (db.save job).1 = db) ∧
    (db.removeByJobId k).1.findByJobId k = none ∧
    (k' ≠ k → (db.removeByJobId k).1.findByJobId k' = db.findByJobId k') ∧
    ((db.removeByJobName n).1.findByJobName n).getD [] = [] ∧
    (db.removeByJobName n).1.jobsDb.docs.filter (·.data.jobName != n) =
      db.jobsDb.docs.filter (·.data.jobName != n) := by
  have hw := wellKeyed_empty.runOps ops
  refine ⟨hw, fun ht => ⟨findByJobId_save_self _ ht, findByJobId_save_of_ne _ _,
    count_save _ (hw.save job) ht⟩, fun h => save_of_not_truthy _ (by simp [h, truthy]),
    findByJobId_removeByJobId_self _ hw k, findByJobId_removeByJobId_of_ne _ hw,
    findByJobName_removeByJobName_self _ n, removeByJobName_keeps_others _ hw n⟩

end AWSBatchDB

end AioAwsBatch
