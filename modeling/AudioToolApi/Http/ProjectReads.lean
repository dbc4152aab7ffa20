/-
What `/project` answers to a write, and to a read after it. `put` answers
with the `project_model` that it created the row from, of which nothing has
set `is_deleted`; `post` answers with one that was filled from the row.
`project_reads_back_iff` says when a write and the read agree.
-/
import AudioToolApi.Handlers.BaseFacts
import AudioToolApi.Http.Isolation
import AudioToolApi.Http.ProcessFacts
import AudioToolApi.Models.ConcurrentCreate
import AudioToolApi.Models.ProjectFacts

namespace AudioToolApi

open Effects

/-! ## Requests to `/project` -/

/-- What a request comes to, over a handler of its own: `memory` is what is in
the fields that nothing has set. -/
def onProject (env : Env) (memory : Uninit) (r : HttpRequest) (user : User) (w : World) :
    EStateM.Result Exn Handling Bool :=
  let env := { env with uninit := memory }
  (projectHandler env).run r { (projectHandler env).construct env w with user }

/-- The answer that is a project. -/
def projectAnswer (p : Project) : Content := .json (jsonify [(text "output", p.toJson), (text "status", .int 200)])

theorem projectAnswer_eq (p : Project) :
    projectAnswer p = .json (.object [
      (text "output", .object [(text "creator_id", .int p.creatorId), (text "guid", .string p.guid),
        (text "is_deleted", .bool p.isDeleted), (text "name", .string p.name),
        (text "project_data", .string p.projectData)]),
      (text "status", .int 200)]) := rfl

/-- It tells of everything but the id. -/
theorem projectAnswer_inj {p q : Project} :
    projectAnswer p = projectAnswer q ↔ p.creatorId = q.creatorId ∧ p.guid = q.guid ∧ p.isDeleted = q.isDeleted ∧
      p.name = q.name ∧ p.projectData = q.projectData := by
  simp [projectAnswer_eq]

/-! ## What a method returns -/

theorem putProjectData_ok {j : Json} {data : Bytes} {h h' : Handling} (hd : putProjectData j h = .ok data h') :
    h = h' := by
  rw [putProjectData] at hd
  split at hd
  · exact (jsonString_ok_iff.mp hd).2
  · exact (pure_ok_iff.mp hd).2

section

variable {env : Env} {r : HttpRequest} {h h' : Handling}

/-- `put` creates the project that it answers with. -/
theorem projectPut_ok (hput : projectPut env h = .ok () h') :
    ∃ name projectData creatorId p w,
      { Project.new env with name, projectData, creatorId }.create env h.world = .ok p w ∧
        { h with world := w, responseData := .project p } = h' := by
  rw [projectPut] at hput
  obtain ⟨j, _, hj, hput⟩ := bind_ok_iff.mp hput
  obtain ⟨-, rfl⟩ := member_ok_iff.mp hj
  obtain ⟨_, _, hname, hput⟩ := bind_ok_iff.mp hput
  obtain ⟨-, rfl⟩ := require_ok_iff.mp hname
  obtain ⟨_, _, hcreator, hput⟩ := bind_ok_iff.mp hput
  obtain ⟨-, rfl⟩ := require_ok_iff.mp hcreator
  obtain ⟨creatorId, _, hid, hput⟩ := bind_ok_iff.mp hput
  obtain rfl := jsonInt_ok hid
  obtain ⟨projectData, _, hdata, hput⟩ := bind_ok_iff.mp hput
  obtain rfl := putProjectData_ok hdata
  obtain ⟨name, _, hname, hput⟩ := bind_ok_iff.mp hput
  obtain ⟨-, rfl⟩ := jsonString_ok_iff.mp hname
  obtain ⟨p, _, hin, hset⟩ := bind_ok_iff.mp hput
  obtain ⟨w, hcreate, rfl⟩ := inWorld_ok_iff.mp hin
  cases hset
  exact ⟨name, projectData, creatorId, p, w, hcreate, rfl⟩

/-- `post` fills a project, changes it, and answers with it. -/
theorem projectPost_ok (hpost : projectPost env h = .ok () h') :
    ∃ guid name projectData p w w', (Project.new env).fillByGuid guid h.world = .ok p w ∧
      { p with name, projectData }.update w = .ok () w' ∧
        { h with world := w', responseData := .project { p with name, projectData } } = h' := by
  rw [projectPost] at hpost
  obtain ⟨j, _, hj, hpost⟩ := bind_ok_iff.mp hpost
  obtain ⟨-, rfl⟩ := member_ok_iff.mp hj
  obtain ⟨_, _, hguid, hpost⟩ := bind_ok_iff.mp hpost
  obtain ⟨-, rfl⟩ := require_ok_iff.mp hguid
  obtain ⟨_, _, hname, hpost⟩ := bind_ok_iff.mp hpost
  obtain ⟨-, rfl⟩ := require_ok_iff.mp hname
  obtain ⟨guid, _, hguid, hpost⟩ := bind_ok_iff.mp hpost
  obtain ⟨-, rfl⟩ := jsonString_ok_iff.mp hguid
  obtain ⟨p, _, hin, hpost⟩ := bind_ok_iff.mp hpost
  obtain ⟨w, hfill, rfl⟩ := inWorld_ok_iff.mp hin
  obtain ⟨name, _, hname, hpost⟩ := bind_ok_iff.mp hpost
  obtain ⟨-, rfl⟩ := jsonString_ok_iff.mp hname
  obtain ⟨projectData, _, hdata, hpost⟩ := bind_ok_iff.mp hpost
  obtain ⟨-, rfl⟩ := jsonString_ok_iff.mp hdata
  obtain ⟨_, _, hin, hset⟩ := bind_ok_iff.mp hpost
  obtain ⟨w', hupdate, rfl⟩ := inWorld_ok_iff.mp hin
  cases hset
  exact ⟨guid, name, projectData, p, w, w', hfill, hupdate, rfl⟩

theorem projectGet_row {row : ProjectRow} (hguid : r.urlParams.lookup (text "guid") = some row.guid)
    (hkeyed : Rows.Unique ProjectRow.guid h.world.db.projects) (hrow : row ∈ h.world.db.projects)
    (hfault : h.world.fault = none) :
    projectGet env r h = .ok () { h with world := h.world.next, responseData := .project row.model } := by
  have hparam : r.hasParam (text "guid") = true := by rw [HttpRequest.hasParam, hguid]; rfl
  have hfill : inWorld ((Project.new env).fillByGuid row.guid) h = .ok row.model { h with world := h.world.next } :=
    inWorld_ok_iff.mpr ⟨_, projectFill_row hkeyed hrow hfault _, rfl⟩
  rw [projectGet, hparam, hguid, bind_ok (require_ok_iff.mpr ⟨rfl, rfl⟩)]
  exact bind_ok hfill

/-! ## What a request returns -/

theorem finishModel_project {p : Project} (hp : h.responseData = .project p) (hstatus : h.response.status = 200) :
    finishModel h = .ok () { h with response := { h.response with content := projectAnswer p } } := by
  have hanswer : Content.json (jsonify [(text "output", h.responseData.toJson), (text "status", .int h.response.status)]) =
      projectAnswer p := by
    rw [hp, hstatus]
    rfl
  rw [← hanswer]
  rfl

theorem finishModel_told {p : Project} (hfinish : finishModel h = .ok () h') (hp : h.responseData = .project p)
    (hstatus : h.response.status = 200) : h'.response.content = projectAnswer p ∧ h'.world = h.world := by
  rw [finishModel_project hp hstatus] at hfinish
  cases hfinish
  exact ⟨rfl, rfl⟩

/-- A request that is answered has been read, and its method has returned. -/
theorem projectRun_ok {method : HttpRequest → Handle Unit} (hm : (projectHandler env).method r.verb = some method)
    (hj : h.json = .null) (hrun : (projectHandler env).run r h = .ok true h') :
    ∃ h₁ h₂, h.Read h₁ ∧ method r h₁ = .ok () h₂ ∧ finishModel h₂ = .ok () h' := by
  obtain ⟨h₁, hread, hparse⟩ := @parseJson_read env r h hj
  cases hsent : sentJson env r with
  | error what =>
    rw [hsent] at hparse
    have herror : (projectHandler env).run r h = .error (.std what) h₁ := bind_error (bind_error hparse)
    rw [herror] at hrun
    cases hrun
  | ok j =>
    rw [hsent] at hparse
    rw [modelRun_eq rfl rfl hm hparse] at hrun
    obtain ⟨_, h₂, hmethod, hrun⟩ := bind_ok_iff.mp hrun
    obtain ⟨_, h₃, hfinish, hpure⟩ := bind_ok_iff.mp hrun
    obtain ⟨-, rfl⟩ := pure_ok_iff.mp hpure
    exact ⟨h₁, h₂, hread, hmethod, hfinish⟩

end

/-! ## Reading after writing -/

/-- Every `GET` for the guid that is read and whose statement is taken has this
answer. -/
def ReadsAs (env : Env) (guid : Bytes) (db : Tables) (content : Content) : Prop :=
  ∀ memory r user w, r.verb = .get → r.urlParams.lookup (text "guid") = some guid → Returned (sentJson env r) →
    w.db = db → w.fault = none → ∃ h, onProject env memory r user w = .ok true h ∧ h.response.content = content

structure OthersKept (guid : Bytes) (before after : Tables) : Prop where
  users : after.users = before.users
  sessions : after.sessions = before.sessions
  files : after.files = before.files
  projects : after.projects.filter (·.guid ≠ guid) = before.projects.filter (·.guid ≠ guid)

/-- The answer to a write is that of the reads after it, and no other row has
changed. -/
def ReadBack (env : Env) (before : Tables) (h : Handling) : Prop :=
  ∃ p, h.response.content = projectAnswer p ∧ ReadsAs env p.guid h.world.db (projectAnswer p) ∧
    OthersKept p.guid before h.world.db

variable {env : Env} {memory : Uninit} {r : HttpRequest} {user : User} {w : World} {h : Handling}

theorem readsAs_row {db : Tables} {row : ProjectRow} (hkeyed : Rows.Unique ProjectRow.guid db.projects)
    (hrow : row ∈ db.projects) : ReadsAs env row.guid db (projectAnswer row.model) := by
  intro memory r user w hverb hguid hsent hdb hfault
  subst hdb
  let e : Env := { env with uninit := memory }
  let start : Handling := { (projectHandler e).construct e w with user }
  obtain ⟨j, hj⟩ := hsent
  obtain ⟨h₁, hread, hparse⟩ := @parseJson_read e r start rfl
  have hsent' : sentJson e r = .ok j := hj
  rw [hsent'] at hparse
  have hmethod : (projectHandler e).method r.verb = some (projectGet e) := by rw [hverb]; rfl
  have hworld : h₁.world = { w with lastInsertId := 0 } := hread.1
  have hget : projectGet e r h₁ = .ok () { h₁ with world := h₁.world.next, responseData := .project row.model } := by
    refine projectGet_row hguid ?_ ?_ ?_
    · rw [hworld]
      exact hkeyed
    · rw [hworld]
      exact hrow
    · rw [hworld]
      exact hfault
  have hstatus : h₁.response.status = 200 := by rw [hread.2.2]; rfl
  refine ⟨_, (modelRun_eq rfl rfl hmethod hparse).trans ((bind_ok hget).trans (bind_ok (finishModel_project rfl hstatus))), rfl⟩

/-- There is such a `GET`, and it has one answer. -/
theorem ReadsAs.unique {guid : Bytes} {db : Tables} {content content' : Content} (h : ReadsAs env guid db content)
    (h' : ReadsAs env guid db content') : content = content' := by
  let read : HttpRequest := {
    verb := .get, path := text "/project", urlParams := [(text "guid", guid)], contentType := [], files := [], body := [] }
  have hguid : read.urlParams.lookup (text "guid") = some guid := List.lookup_cons_self
  obtain ⟨t, ht, rfl⟩ := h {} read (.new env) { db } rfl hguid (returned_ok _) rfl rfl
  obtain ⟨t', ht', rfl⟩ := h' {} read (.new env) { db } rfl hguid (returned_ok _) rfl rfl
  rw [ht] at ht'
  cases ht'
  rfl

/-! ## `post` -/

theorem onProject_post (hverb : r.verb = .post) (hpost : onProject env memory r user w = .ok true h) :
    ∃ p row, row ∈ w.db.projects ∧ row.guid = p.guid ∧ p.creatorId = row.creatorId ∧ h.response.content = projectAnswer p ∧
      h.world.db = (updateProjects p w).db := by
  let e : Env := { env with uninit := memory }
  have hmethod : (projectHandler e).method r.verb = some (fun _ => projectPost e) := by rw [hverb]; rfl
  obtain ⟨h₁, h₂, hread, hmethod, hfinish⟩ := projectRun_ok hmethod rfl hpost
  obtain ⟨guid, name, projectData, q, v, v', hfill, hupdate, rfl⟩ := projectPost_ok hmethod
  have hstatus : h₁.response.status = 200 := by rw [hread.2.2]; rfl
  obtain ⟨hcontent, hworld⟩ := finishModel_told hfinish rfl hstatus
  rw [hread.1] at hfill
  obtain ⟨-, ⟨row, hrow, rfl⟩, rfl⟩ := projectFill_ok_iff.mp hfill
  obtain ⟨-, rfl⟩ := execute_ok_iff.mp hupdate
  exact ⟨_, row, (List.mem_filter.mp (List.mem_of_mem_head? hrow)).1, rfl, rfl, hcontent, (congrArg World.db hworld).trans rfl⟩

/-- What `post` answers is what is read: all that is told of was filled from
the row, or is written to it. -/
theorem post_reads_back (hkeyed : Rows.Unique ProjectRow.guid w.db.projects) (hverb : r.verb = .post)
    (hpost : onProject env memory r user w = .ok true h) : ReadBack env w.db h := by
  obtain ⟨p, row, hrow, hguid, hcreator, hcontent, hdb⟩ := onProject_post hverb hpost
  refine ⟨p, hcontent, ?_, ?_⟩
  · have hmem : p.updated row ∈ (updateProjects p w).db.projects := List.mem_map_of_mem hrow
    have hread := @readsAs_row env _ _ (updateProjects_unique hkeyed) hmem
    have hanswer : projectAnswer (p.updated row).model = projectAnswer p := by
      rw [Project.updated, if_pos hguid]
      exact projectAnswer_inj.mpr ⟨hcreator.symm, hguid, rfl, rfl, rfl⟩
    rw [updated_guid, hguid, hanswer] at hread
    rw [hdb]
    exact hread
  · rw [hdb]
    exact ⟨rfl, rfl, rfl, updateProjects_others p w⟩

/-! ## `put` -/

theorem onProject_put (hids : Rows.Counted ProjectRow.id w.db.nextProject w.db.projects) (hverb : r.verb = .put)
    (hput : onProject env memory r user w = .ok true h) :
    ∃ p q : Project, p.isDeleted = memory.projectIsDeleted ∧ q = { p with guid := env.uuid w.uuids } ∧
      h.response.content = projectAnswer q ∧
        h.world.db = { w.db with
          nextProject := w.db.nextProject + 1, projects := w.db.projects ++ [p.newRow (env.uuid w.uuids) w] } := by
  let e : Env := { env with uninit := memory }
  have hmethod : (projectHandler e).method r.verb = some (fun _ => projectPut e) := by rw [hverb]; rfl
  obtain ⟨h₁, h₂, hread, hmethod, hfinish⟩ := projectRun_ok hmethod rfl hput
  obtain ⟨name, projectData, creatorId, q, v, hcreate, rfl⟩ := projectPut_ok hmethod
  have hstatus : h₁.response.status = 200 := by rw [hread.2.2]; rfl
  obtain ⟨hcontent, hworld⟩ := finishModel_told hfinish rfl hstatus
  rw [hread.1] at hcreate
  obtain ⟨hq, hdb⟩ := projectCreate_row (w := { w with lastInsertId := 0 }) hids hcreate
  exact ⟨_, q, rfl, hq, hcontent, (congrArg World.db hworld).trans hdb⟩

/-- What `put` answers is what is read exactly when `is_deleted` happens to be
false where nothing has set it. -/
theorem put_reads_back_iff (hkeyed : Creating.ProjectsKeyed w.db)
    (hguid : ∀ row ∈ w.db.projects, row.guid ≠ env.uuid w.uuids) (hverb : r.verb = .put)
    (hput : onProject env memory r user w = .ok true h) :
    ReadBack env w.db h ↔ memory.projectIsDeleted = false := by
  obtain ⟨p, q, hmemory, rfl, hcontent, hdb⟩ := onProject_put hkeyed.ids hverb hput
  let row := p.newRow (env.uuid w.uuids) w
  have hunique : Rows.Unique ProjectRow.guid (w.db.projects ++ [row]) := hkeyed.guids.append hguid
  have hread : ReadsAs env (env.uuid w.uuids) h.world.db (projectAnswer row.model) := by
    rw [hdb]
    exact @readsAs_row env _ row hunique (List.mem_append_right _ (.head _))
  have hagree : projectAnswer row.model = projectAnswer { p with guid := env.uuid w.uuids } ↔
      memory.projectIsDeleted = false := by
    rw [projectAnswer_inj, ← hmemory]
    constructor
    · intro h
      exact h.2.2.1.symm
    · intro h
      exact ⟨rfl, rfl, h.symm, rfl, rfl⟩
  constructor
  · intro h
    obtain ⟨q, hq, hreads, -⟩ := h
    have hsame := projectAnswer_inj.mp (hcontent.symm.trans hq)
    rw [← hsame.2.1, ← hq, hcontent] at hreads
    exact hagree.mp (hread.unique hreads)
  · intro h
    rw [hagree.mpr h] at hread
    refine ⟨_, hcontent, hread, ?_⟩
    rw [hdb]
    refine ⟨rfl, rfl, rfl, ?_⟩
    have hnone : [row].filter (·.guid ≠ env.uuid w.uuids) = [] := by simp [row, Project.newRow]
    show (w.db.projects ++ [row]).filter _ = _
    rw [List.filter_append, hnone, List.append_nil]

/-- **Writes and reads of a project agree exactly when** the `is_deleted` that
the constructor of `put`'s project leaves unset is false; every later `post`
agrees with the reads after it. -/
theorem project_reads_back_iff (hkeyed : Creating.ProjectsKeyed w.db)
    (hguid : ∀ row ∈ w.db.projects, row.guid ≠ env.uuid w.uuids) (hverb : r.verb = .put)
    (hput : onProject env memory r user w = .ok true h) :
    (ReadBack env w.db h ∧ ∀ memory r user v t, Creating.ProjectsKeyed v.db → r.verb = .post →
      onProject env memory r user v = .ok true t → ReadBack env v.db t) ↔ memory.projectIsDeleted = false := by
  rw [put_reads_back_iff hkeyed hguid hverb hput]
  exact and_iff_left fun memory r user v t hv hpost ht => post_reads_back hv.guids hpost ht

/-- The project `mine`, for the second user. -/
def putMine : HttpRequest where
  verb := .put
  path := text "/project"
  urlParams := []
  contentType := text "application/json"
  files := []
  body := putBody

/-- What `put` leaves, with this in the memory of its project. -/
def afterPut (isDeleted : Bool) : Handling :=
  left (onProject sampleEnv { projectIsDeleted := isDeleted } putMine (.new sampleEnv) twoUsers)

theorem afterPut_ok (isDeleted : Bool) :
    onProject sampleEnv { projectIsDeleted := isDeleted } putMine (.new sampleEnv) twoUsers =
      .ok true (afterPut isDeleted) := by
  rfl

theorem twoUsers_keyed : Creating.ProjectsKeyed twoUsers.db where
  ids := ⟨List.nodup_singleton _, by simp [twoUsers]⟩
  guids := List.nodup_singleton _

theorem twoUsers_fresh : ∀ row ∈ twoUsers.db.projects, row.guid ≠ sampleEnv.uuid twoUsers.uuids := by
  decide

theorem project_reads_back_mine :
    ReadBack sampleEnv twoUsers.db (afterPut false) ∧ ∀ memory r user v t, Creating.ProjectsKeyed v.db → r.verb = .post →
      onProject sampleEnv memory r user v = .ok true t → ReadBack sampleEnv v.db t :=
  (project_reads_back_iff twoUsers_keyed twoUsers_fresh rfl (afterPut_ok false)).mpr rfl

/-- The answer says that the new project is deleted, and a `GET` that it is
not. -/
theorem put_tells_deleted :
    onProject sampleEnv { projectIsDeleted := true } putMine (.new sampleEnv) twoUsers = .ok true (afterPut true) ∧
      ¬ ReadBack sampleEnv twoUsers.db (afterPut true) := by
  refine ⟨afterPut_ok true, fun h => ?_⟩
  have hfalse := (put_reads_back_iff twoUsers_keyed twoUsers_fresh rfl (afterPut_ok true)).mp h
  cases hfalse

end AudioToolApi
