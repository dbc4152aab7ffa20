/-
The models of files and projects in two runs: each call ends the same way in
worlds that agree on the rows it selects.
-/
import AudioToolApi.Models.File
import AudioToolApi.Models.Project
import AudioToolApi.Utilities.DatabaseFacts

namespace AudioToolApi

open Effects

variable {R : World → World → Prop}

theorem fileFillByGuid_alike (hR : Driven R) (f : File) (guid : Bytes) (withData : Bool)
    (hrows : ∀ w v, R w v → w.db.files.filter (·.guid = guid) = v.db.files.filter (·.guid = guid)) :
    Alike R (f.fillByGuid guid withData) fun _ => True :=
  .bind (select_alike hR hrows) fun _ _ => .bind (firstRow_alike _ _) fun _ _ => .pure trivial

theorem getFilesForUser_alike (hR : Driven R) (userId : Int)
    (hrows : ∀ w v, R w v →
      (w.db.files.filter fun r => r.userId = userId ∧ r.isDeleted = false) =
        v.db.files.filter fun r => r.userId = userId ∧ r.isDeleted = false) :
    Alike R (getFilesForUser userId) fun _ => True :=
  .bind (select_alike hR hrows) fun _ _ => .pure trivial

theorem projectFillByGuid_alike (hR : Driven R) (p : Project) (guid : Bytes)
    (hrows : ∀ w v, R w v → w.db.projects.filter (·.guid = guid) = v.db.projects.filter (·.guid = guid)) :
    Alike R (p.fillByGuid guid) fun p => p.guid = guid :=
  .bind (select_alike hR hrows) fun _ _ => .bind (firstRow_alike _ _) fun _ _ => .pure rfl

theorem getProjectsForUser_alike (hR : Driven R) (userId : Int) (withData : Bool)
    (hrows : ∀ w v, R w v →
      w.db.projects.filter (·.creatorId = userId) = v.db.projects.filter (·.creatorId = userId)) :
    Alike R (getProjectsForUser userId withData) fun _ => True :=
  .bind (select_alike hR hrows) fun _ _ => .pure trivial

theorem projectUpdate_alike (hR : Driven R) (p : Project)
    (hupdate : ∀ w v, R w v → R (updateProjects p w) (updateProjects p v)) : Alike R p.update fun _ => True :=
  execute_alike hR hupdate

/-- A row that is read back: what is made of it depends on no more than `g`. -/
theorem readBack_same {α β κ : Type} (hR : Driven R) {rows : World → List α} {what : Bytes} {g : α → κ}
    {f : κ → Act β} (hf : ∀ k, Alike R (f k) fun _ => True) {w v : World} (h : R w v)
    (hrows : (rows w.next).map g = (rows v.next).map g) :
    Same R (fun _ => True) ((do let rs ← select rows; let row ← firstRow what rs; f (g row)) w)
      ((do let rs ← select rows; let row ← firstRow what rs; f (g row)) v) := by
  have hn := hR.next w v h
  rw [bind_apply, bind_apply, select, statement, statement, ← hR.fault w v h]
  cases w.fault with
  | none =>
    show Same R _ ((firstRow what (rows w.next) >>= fun row => f (g row)) w.next)
      ((firstRow what (rows v.next) >>= fun row => f (g row)) v.next)
    generalize rows w.next = rs at hrows
    generalize rows v.next = ss at hrows
    cases rs with
    | nil =>
      obtain rfl := List.map_eq_nil_iff.mp hrows.symm
      exact .error hn
    | cons r rs =>
      cases ss with
      | nil => cases hrows
      | cons s ss =>
        have hkey : g r = g s := (List.cons.inj hrows).1
        show Same R _ (f (g r) w.next) (f (g s) v.next)
        rw [← hkey]
        exact hf (g r) _ _ hn
  | some f => cases f <;> exact .error hn

/-- An `INSERT`, and the row that is read back. -/
theorem insert_leads {α β κ : Type} {R' : World → World → Prop} (hR : Driven R) (hR' : Driven R')
    (hweaken : ∀ w v, R w v → R' w v) {insert : World → World} {rows : World → List α} {what : Bytes} {g : α → κ}
    {f : κ → Act β} (hinsert : ∀ w v, R w v → R' (insert w) (insert v))
    (hrows : ∀ w v, R w v → (rows (insert w).next).map g = (rows (insert v).next).map g)
    (hf : ∀ k, Alike R' (f k) fun _ => True) :
    Leads R R' (do execute insert; let rs ← select rows; let row ← firstRow what rs; f (g row)) fun _ => True := by
  intro w v h
  have hn := hR.next w v h
  have hi := hinsert _ _ hn
  rw [bind_apply, bind_apply, execute, statement, statement, ← hR.fault w v h]
  cases w.fault with
  | none => exact readBack_same hR' hf hi (hrows _ _ hn)
  | some f =>
    cases f with
    | refused what => exact .error (hweaken _ _ hn)
    | lost what => exact .error hi
    | hung => exact .error (hweaken _ _ hn)

/-- The rows with the id that is given out next. -/
def World.nextFileRows (w : World) : List FileRow := w.db.files.filter (·.id = w.db.nextFile)

def World.nextProjectRows (w : World) : List ProjectRow := w.db.projects.filter (·.id = w.db.nextProject)

theorem filter_inserted {α : Type} {p : α → Bool} (rows : List α) {row : α} (h : p row = true) :
    (rows ++ [row]).filter p = rows.filter p ++ [row] := by
  rw [List.filter_append, List.filter_cons_of_pos h, List.filter_nil]

/-- What a file is told of its row. -/
def FileRow.told (row : FileRow) : Int × Bytes := (row.id, row.guid)

theorem fileCreate_alike (hR : Driven R) (env : Env) (f : File)
    (hinsert : ∀ w v, R w v → R (insertFile f (env.uuid w.uuids) w) (insertFile f (env.uuid v.uuids) v))
    (hrows : ∀ w v, R w v → w.uuids = v.uuids ∧ w.db.nextFile = v.db.nextFile ∧
      w.nextFileRows.map FileRow.told = v.nextFileRows.map FileRow.told) :
    Alike R (f.create env) fun _ => True := by
  refine insert_leads (g := FileRow.told) (f := fun told => pure { f with id := told.1, guid := told.2 }) hR hR
    (fun _ _ => id) hinsert (fun w v h => ?_) fun told => .pure trivial
  obtain ⟨huuids, hnext, hsame⟩ := hrows w v h
  have hsplit : ∀ w : World, (insertFile f (env.uuid w.uuids) w).next.db.files.filter
      (·.id = (insertFile f (env.uuid w.uuids) w).next.lastInsertId) = w.nextFileRows ++ [f.newRow (env.uuid w.uuids) w] := by
    intro w
    exact filter_inserted _ (decide_eq_true rfl)
  have hnew : (f.newRow (env.uuid w.uuids) w).told = (f.newRow (env.uuid v.uuids) v).told := by
    rw [File.newRow, File.newRow, huuids, hnext]
    rfl
  rw [hsplit, hsplit, List.map_append, List.map_append, hsame, List.map_singleton, List.map_singleton, hnew]

theorem projectCreate_leads {R' : World → World → Prop} (hR : Driven R) (hR' : Driven R')
    (hweaken : ∀ w v, R w v → R' w v) (env : Env) (p : Project)
    (hinsert : ∀ w v, R w v → R' (insertProject p (env.uuid w.uuids) w) (insertProject p (env.uuid v.uuids) v))
    (hrows : ∀ w v, R w v → w.uuids = v.uuids ∧
      w.nextProjectRows.map ProjectRow.guid = v.nextProjectRows.map ProjectRow.guid) :
    Leads R R' (p.create env) fun _ => True := by
  refine insert_leads (g := ProjectRow.guid) (f := fun guid => pure { p with guid }) hR hR' hweaken hinsert
    (fun w v h => ?_) fun guid => .pure trivial
  obtain ⟨huuids, hsame⟩ := hrows w v h
  have hsplit : ∀ w : World, (insertProject p (env.uuid w.uuids) w).next.db.projects.filter
      (·.id = (insertProject p (env.uuid w.uuids) w).next.lastInsertId) =
      w.nextProjectRows ++ [p.newRow (env.uuid w.uuids) w] := by
    intro w
    exact filter_inserted _ (decide_eq_true rfl)
  have hnew : (p.newRow (env.uuid w.uuids) w).guid = (p.newRow (env.uuid v.uuids) v).guid := by
    rw [Project.newRow, Project.newRow, huuids]
  rw [hsplit, hsplit, List.map_append, List.map_append, hsame, List.map_singleton, List.map_singleton, hnew]

end AudioToolApi
