/-
Files that are stored and read back: of a file that `create` inserted, the
readers set the same fields, but `fill_by_guid` and `fill_by_id` leave the
name as it was.
-/
import AudioToolApi.Lib.Rows
import AudioToolApi.Models.File
import AudioToolApi.Utilities.DatabaseFacts

namespace AudioToolApi

open Effects

/-! ## The table -/

/-- `id` is `AUTO_INCREMENT`, and no two guids are the same. -/
structure FilesKeyed (db : Tables) : Prop where
  ids : Rows.Counted FileRow.id db.nextFile db.files
  guids : Rows.Unique FileRow.guid db.files

theorem FilesKeyed.insert {f : File} {guid : Bytes} {w : World} (h : FilesKeyed w.db)
    (hguid : ∀ r ∈ w.db.files, r.guid ≠ guid) : FilesKeyed (insertFile f guid w).db where
  ids := h.ids.insert rfl
  guids := h.guids.append hguid

/-- The row that holds a file. -/
structure FileRow.Holds (row : FileRow) (f : File) : Prop where
  id : row.id = f.id
  guid : row.guid = f.guid
  name : row.name = f.name
  data : row.data = f.data
  size : row.size = f.size
  userId : row.userId = f.userId
  sampleRate : row.sampleRate = f.sampleRate

/-! ## `create` -/

/-- The world once the file is inserted. -/
def withFile (env : Env) (f : File) (w : World) : World := insertFile f (env.uuid w.uuids) w.next

theorem fileCreate_ok_iff {env : Env} {f f' : File} {w w' : World} :
    f.create env w = .ok f' w' ↔
      w.Sound 2 ∧ (withFile env f w).next = w' ∧
        ∃ row, ((withFile env f w).db.files.filter (·.id = w.db.nextFile)).head? = some row ∧
          f' = { f with id := row.id, guid := row.guid } := by
  have hinsert : ∀ v : World, (insertFile f (env.uuid v.uuids) v).faults = v.faults := fun _ => rfl
  rw [File.create]
  exact insertRead_ok_iff hinsert

/-- The confirmation finds the row that was inserted. -/
theorem confirm_inserted {db : Tables} (h : Rows.Counted FileRow.id db.nextFile db.files) {row : FileRow}
    (hrow : row.id = db.nextFile) : (db.files ++ [row]).filter (·.id = db.nextFile) = [row] := by
  have hids := (h.insert hrow).unique
  rw [← hrow]
  exact hids.filter_eq (by simp)

theorem fileCreate_takes (env : Env) (f : File) (w : World) : Takes 2 w (f.create env w) := by
  have hinsert : ∀ v : World, (insertFile f (env.uuid v.uuids) v).faults = v.faults := fun _ => rfl
  rw [File.create]
  refine insertRead_takes hinsert ?_
  simp [insertFile, File.newRow, World.next]

/-- What `create` returns is in the table. -/
theorem fileCreate_stored {env : Env} {f f' : File} {w w' : World} (h : Rows.Counted FileRow.id w.db.nextFile w.db.files)
    (hcreate : f.create env w = .ok f' w') :
    ∃ row ∈ w'.db.files, row.Holds f' ∧ row.isDeleted = false := by
  obtain ⟨-, rfl, row, hrow, rfl⟩ := fileCreate_ok_iff.mp hcreate
  have hconfirm : (withFile env f w).db.files.filter (·.id = w.db.nextFile) = [f.newRow (env.uuid w.uuids) w.next] :=
    @confirm_inserted w.db h _ rfl
  rw [hconfirm] at hrow
  cases hrow
  exact ⟨_, List.mem_append_right _ (.head _), ⟨rfl, rfl, rfl, rfl, rfl, rfl, rfl⟩, rfl⟩

/-! ## Reading back -/

/-- What is read is the file, but for the data. -/
structure File.Agrees (f g : File) : Prop where
  id : g.id = f.id
  guid : g.guid = f.guid
  name : g.name = f.name
  size : g.size = f.size
  userId : g.userId = f.userId
  sampleRate : g.sampleRate = f.sampleRate

/-- Every reader finds the file, with all its fields. -/
structure ReadsBack (env : Env) (f : File) (w : World) : Prop where
  byGuid : ∀ withData, ∃ g w', (File.new env).fillByGuid f.guid withData w = .ok g w' ∧ f.Agrees g ∧
    (withData = true → g.data = f.data)
  byId : ∀ withData, ∃ g w', (File.new env).fillById f.id withData w = .ok g w' ∧ f.Agrees g ∧
    (withData = true → g.data = f.data)
  listed : ∃ gs w' g, getFilesForUser f.userId w = .ok gs w' ∧ gs.filter (·.id = f.id) = [g] ∧ f.Agrees g

section

variable {f : File} {row : FileRow} {w : World}

theorem fillByGuid_row (h : FilesKeyed w.db) (hrow : row ∈ w.db.files) (hfault : w.fault = none) (g : File)
    (withData : Bool) : g.fillByGuid row.guid withData w = .ok (g.fill row withData) w.next := by
  have hselect : w.next.db.files.filter (·.guid = row.guid) = [row] := h.guids.filter_eq hrow
  exact selectRow_ok_iff.mpr ⟨hfault, row, congrArg List.head? hselect, rfl⟩

theorem fillById_row (h : FilesKeyed w.db) (hrow : row ∈ w.db.files) (hfault : w.fault = none) (g : File)
    (withData : Bool) : g.fillById row.id withData w = .ok (g.fill row withData) w.next := by
  have hselect : w.next.db.files.filter (·.id = row.id) = [row] := h.ids.unique.filter_eq hrow
  exact selectRow_ok_iff.mpr ⟨hfault, row, congrArg List.head? hselect, rfl⟩

/-- A file that is filled keeps the name it had. -/
theorem fillByGuid_name {f g : File} {guid : Bytes} {withData : Bool} {w w' : World}
    (h : f.fillByGuid guid withData w = .ok g w') : g.name = f.name := by
  simp only [File.fillByGuid, selectRow_ok_iff, pure_ok_iff] at h
  obtain ⟨-, row, -, rfl, -⟩ := h
  rfl

theorem fill_agrees (h : row.Holds f) {g : File} (hname : g.name = f.name) (withData : Bool) :
    f.Agrees (g.fill row withData) := ⟨h.id, h.guid, hname, h.size, h.userId, h.sampleRate⟩

theorem fill_data (h : row.Holds f) (g : File) {withData : Bool} (hdata : withData = true) :
    (g.fill row withData).data = f.data := by
  rw [File.fill, if_pos hdata]
  exact h.data

theorem getFilesForUser_row (h : FilesKeyed w.db) (hrow : row ∈ w.db.files) (hholds : row.Holds f)
    (hdeleted : row.isDeleted = false) (hfault : w.fault = none) :
    ∃ gs w' g, getFilesForUser f.userId w = .ok gs w' ∧ gs.filter (·.id = f.id) = [g] ∧ f.Agrees g := by
  simp only [getFilesForUser, bind_ok_iff, select_ok_iff, pure_ok_iff]
  refine ⟨_, _, _, ⟨_, _, ⟨hfault, rfl, rfl⟩, rfl, rfl⟩, ?_,
    (⟨hholds.id, hholds.guid, hholds.name, hholds.size, hholds.userId, hholds.sampleRate⟩ : f.Agrees
      { id := row.id, data := [], size := row.size, guid := row.guid, name := row.name, userId := row.userId
        sampleRate := row.sampleRate })⟩
  have hlisted : row ∈ w.db.files.filter fun r => r.userId = f.userId ∧ r.isDeleted = false := by
    simp [hrow, hholds.userId, hdeleted]
  rw [List.filter_map, ← hholds.id]
  exact congrArg (List.map _) ((h.ids.unique.filter _).filter_eq hlisted)

end

/-- **Every reader gives back the file** exactly when its name is empty: the
name a fresh `file_model` has. -/
theorem file_reads_back_iff {env : Env} {f f' : File} {w w₁ w₂ : World} (hkeyed : FilesKeyed w.db)
    (hcreate : f.create env w = .ok f' w₁) (hlater : FilesKeyed w₂.db)
    (hkept : ∀ row ∈ w₁.db.files, row.id = f'.id → row ∈ w₂.db.files) (hfault : w₂.fault = none) :
    ReadsBack env f' w₂ ↔ f.name = [] := by
  obtain ⟨row, hrow, hholds, hdeleted⟩ := fileCreate_stored hkeyed.ids hcreate
  have hmem := hkept row hrow hholds.id
  have hname : f'.name = f.name := by
    obtain ⟨-, -, _, -, rfl⟩ := fileCreate_ok_iff.mp hcreate
    rfl
  have hguid (withData : Bool) := fillByGuid_row hlater hmem hfault (File.new env) withData
  have hid (withData : Bool) := fillById_row hlater hmem hfault (File.new env) withData
  rw [hholds.guid] at hguid
  rw [hholds.id] at hid
  rw [← hname]
  constructor
  · intro h
    obtain ⟨g, w', hg, hagrees, -⟩ := h.byGuid false
    rw [← hagrees.name, fillByGuid_name hg]
    rfl
  · intro h
    have hfill (withData : Bool) := fill_agrees hholds (g := File.new env) h.symm withData
    exact
      { byGuid := fun withData => ⟨_, _, hguid withData, hfill withData, fill_data hholds _⟩
        byId := fun withData => ⟨_, _, hid withData, hfill withData, fill_data hholds _⟩
        listed := getFilesForUser_row hlater hmem hholds hdeleted hfault }

def storedFile (name : Bytes) : File where
  id := 0
  data := text "data"
  size := 4
  guid := []
  name := name
  sampleRate := 44100
  userId := 1

theorem keyed_empty : FilesKeyed {} :=
  ⟨⟨List.nodup_nil, by simp⟩, List.nodup_nil⟩

/-- The world once the file is created in an empty database. -/
def storedWorld (name : Bytes) : World := (withFile plainEnv (storedFile name) {}).next

theorem storedWorld_keyed (name : Bytes) : FilesKeyed (storedWorld name).db := by
  have h : FilesKeyed (insertFile (storedFile name) (decimal 0) {}).db := keyed_empty.insert (by simp)
  exact h

theorem file_reads_back_no_name :
    ReadsBack plainEnv { storedFile [] with id := 1, guid := decimal 0 } (storedWorld []) ↔ (storedFile []).name = [] :=
  @file_reads_back_iff plainEnv (storedFile []) _ {} (storedWorld []) _ keyed_empty rfl (storedWorld_keyed [])
    (fun _ h _ => h) rfl

/-- The file `n` is read back without its name. -/
theorem stored_name_lost :
    ¬ ∀ (env : Env) (f f' : File) (w w₁ w₂ : World), FilesKeyed w.db → f.create env w = .ok f' w₁ →
      FilesKeyed w₂.db → (∀ row ∈ w₁.db.files, row.id = f'.id → row ∈ w₂.db.files) → w₂.fault = none →
      ReadsBack env f' w₂ := by
  intro h
  have hread := h plainEnv (storedFile (text "n")) { storedFile (text "n") with id := 1, guid := decimal 0 } {}
    (storedWorld (text "n")) (storedWorld (text "n")) keyed_empty rfl (storedWorld_keyed _) (fun _ h _ => h) rfl
  obtain ⟨g, w', hg, hagrees, -⟩ := hread.byGuid false
  have hname : text "n" = [] := hagrees.name.symm.trans (fillByGuid_name hg)
  revert hname
  decide

end AudioToolApi
