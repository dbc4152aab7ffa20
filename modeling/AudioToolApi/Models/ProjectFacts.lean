/-
Projects that are written and read back. `fill_by_guid` sets every field from
the row, and `update` writes back all that `post` changes; `create` leaves
`is_deleted` to the database and to whatever the `project_model` has there.
-/
import AudioToolApi.Lib.Rows
import AudioToolApi.Models.Project
import AudioToolApi.Utilities.DatabaseFacts

namespace AudioToolApi

open Effects

/-- The `project_model` of a row. -/
def ProjectRow.model (row : ProjectRow) : Project where
  id := row.id
  creatorId := row.creatorId
  isDeleted := row.isDeleted
  guid := row.guid
  name := row.name
  projectData := row.projectData

theorem projectFill_ok_iff {p q : Project} {guid : Bytes} {w w' : World} :
    p.fillByGuid guid w = .ok q w' ↔
      w.fault = none ∧ (∃ row, (w.db.projects.filter (·.guid = guid)).head? = some row ∧ row.model = q) ∧
        w.next = w' := by
  simp only [Project.fillByGuid, selectRow_ok_iff, pure_ok_iff]
  have hguid {row : ProjectRow} (hrow : (w.db.projects.filter (·.guid = guid)).head? = some row) : row.guid = guid := by
    simpa using (List.mem_filter.mp (List.mem_of_mem_head? hrow)).2
  constructor
  · intro h
    obtain ⟨hf, row, hrow, rfl, rfl⟩ := h
    refine ⟨hf, ⟨row, hrow, ?_⟩, rfl⟩
    rw [ProjectRow.model, hguid hrow]
  · intro h
    obtain ⟨hf, ⟨row, hrow, rfl⟩, rfl⟩ := h
    refine ⟨hf, row, hrow, ?_, rfl⟩
    rw [ProjectRow.model, hguid hrow]

/-- A row is read by its guid. -/
theorem projectFill_row {w : World} {row : ProjectRow} (h : Rows.Unique ProjectRow.guid w.db.projects)
    (hrow : row ∈ w.db.projects) (hfault : w.fault = none) (p : Project) :
    p.fillByGuid row.guid w = .ok row.model w.next :=
  projectFill_ok_iff.mpr ⟨hfault, ⟨row, by rw [h.filter_eq hrow]; rfl, rfl⟩, rfl⟩

/-! ## `create` -/

/-- The world once the project is inserted. -/
def withProject (env : Env) (p : Project) (w : World) : World := insertProject p (env.uuid w.uuids) w.next

theorem projectCreate_ok_iff {env : Env} {p q : Project} {w w' : World} :
    p.create env w = .ok q w' ↔
      w.Sound 2 ∧ (withProject env p w).next = w' ∧
        ∃ row, ((withProject env p w).db.projects.filter (·.id = w.db.nextProject)).head? = some row ∧
          q = { p with guid := row.guid } := by
  have hinsert : ∀ v : World, (insertProject p (env.uuid v.uuids) v).faults = v.faults := fun _ => rfl
  rw [Project.create]
  exact insertRead_ok_iff hinsert

/-- One row more, with the guid that `create` sets. -/
theorem projectCreate_row {env : Env} {p q : Project} {w w' : World}
    (hids : Rows.Counted ProjectRow.id w.db.nextProject w.db.projects) (h : p.create env w = .ok q w') :
    q = { p with guid := env.uuid w.uuids } ∧
      w'.db = { w.db with
        nextProject := w.db.nextProject + 1, projects := w.db.projects ++ [p.newRow (env.uuid w.uuids) w] } := by
  obtain ⟨-, rfl, row, hrow, rfl⟩ := projectCreate_ok_iff.mp h
  have hconfirm : (withProject env p w).db.projects.filter (·.id = w.db.nextProject) =
      [p.newRow (env.uuid w.uuids) w] := by
    have hid : (p.newRow (env.uuid w.uuids) w).id = w.db.nextProject := rfl
    have hunique := (hids.insert hid).unique
    rw [← hid]
    exact hunique.filter_eq (by simp)
  rw [hconfirm] at hrow
  cases hrow
  exact ⟨rfl, rfl⟩

/-! ## `update` -/

/-- What `update` makes of a row. -/
def Project.updated (p : Project) (row : ProjectRow) : ProjectRow :=
  if row.guid = p.guid then { row with name := p.name, projectData := p.projectData, isDeleted := p.isDeleted } else row

theorem updated_guid (p : Project) (row : ProjectRow) : (p.updated row).guid = row.guid := by
  rw [Project.updated]
  split <;> rfl

theorem updateProjects_unique {p : Project} {w : World} (h : Rows.Unique ProjectRow.guid w.db.projects) :
    Rows.Unique ProjectRow.guid (updateProjects p w).db.projects := by
  have hguids : (updateProjects p w).db.projects.map ProjectRow.guid = w.db.projects.map ProjectRow.guid := by
    show (w.db.projects.map p.updated).map ProjectRow.guid = _
    rw [List.map_map]
    exact List.map_congr_left fun row _ => updated_guid p row
  rw [Rows.Unique, hguids]
  exact h

/-- The other rows stay. -/
theorem updateProjects_others (p : Project) (w : World) :
    (updateProjects p w).db.projects.filter (·.guid ≠ p.guid) = w.db.projects.filter (·.guid ≠ p.guid) := by
  show (w.db.projects.map p.updated).filter _ = _
  induction w.db.projects with
  | nil => rfl
  | cons row rows ih =>
    rw [List.map_cons, List.filter_cons, List.filter_cons, ih, updated_guid]
    by_cases hrow : row.guid = p.guid
    · simp [hrow]
    · simp [hrow, Project.updated]

end AudioToolApi
