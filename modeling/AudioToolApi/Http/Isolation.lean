/-
Users and each other's rows. A request changes no row of a file of another
user, and of another's projects only those whose guid `POST /project` names;
rows are created for another only by `PUT /project`, which asks for an owner.
And its response depends, route by route, on the user's own rows, on those with
the guid that the request names, or on what the row that it creates is given.
-/
import AudioToolApi.Http.GateFacts
import AudioToolApi.Http.RouteFootprint
import Mathlib.Data.List.Forall2

namespace AudioToolApi

open Effects

/-! ## What a request leaves of the rows of others -/

/-- A project before and after: its owner, guid and id stay, and all of it
unless the request changes the projects with its guid. -/
structure Touched (env : Env) (r : HttpRequest) (old new : ProjectRow) : Prop where
  id : new.id = old.id
  guid : new.guid = old.guid
  creatorId : new.creatorId = old.creatorId
  same : ¬ UpdatesProject env r old.guid → new = old

/-- The tables of projects before and after: at most one is added. -/
def ProjectsKept (env : Env) (r : HttpRequest) (old new : List ProjectRow) : Prop :=
  ∃ (kept : List ProjectRow) (added : Option ProjectRow), new = kept ++ added.toList ∧
    List.Forall₂ (Touched env r) old kept ∧ ∀ p ∈ added, CreatesProject env r p.creatorId

/-- The tables of files before and after: those of other users are the same. -/
def FilesKept (userId : Int) (old new : List FileRow) : Prop :=
  new.filter (·.userId ≠ userId) = old.filter (·.userId ≠ userId)

section

variable {env : Env} {r : HttpRequest}

theorem Touched.refl (row : ProjectRow) : Touched env r row row := ⟨rfl, rfl, rfl, fun _ => rfl⟩

/-- `UPDATE`. -/
theorem touched_update {old new : List ProjectRow} (h : List.Forall₂ (Touched env r) old new) {p : Project}
    (hp : UpdatesProject env r p.guid) :
    List.Forall₂ (Touched env r) old (new.map fun row =>
      if row.guid = p.guid then { row with name := p.name, projectData := p.projectData, isDeleted := p.isDeleted }
      else row) := by
  rw [List.forall₂_map_right_iff]
  refine h.imp fun a b hab => ?_
  split
  · rename_i hg
    refine ⟨hab.id, hab.guid, hab.creatorId, fun hno => absurd ?_ hno⟩
    rw [← hab.guid, hg]
    exact hp
  · exact hab

theorem touched_kept {old new : List ProjectRow} (h : List.Forall₂ (Touched env r) old new) :
    ProjectsKept env r old new :=
  ⟨new, none, (List.append_nil new).symm, h, fun p hp => by cases hp⟩

/-- `INSERT`. -/
theorem touched_insert {old new : List ProjectRow} (h : List.Forall₂ (Touched env r) old new) {row : ProjectRow}
    (hrow : CreatesProject env r row.creatorId) : ProjectsKept env r old (new ++ [row]) := by
  refine ⟨new, some row, rfl, h, fun p hp => ?_⟩
  obtain rfl := Option.mem_some.mp hp
  exact hrow

theorem FilesKept.insert {userId : Int} {old new : List FileRow} (h : FilesKept userId old new) {row : FileRow}
    (hrow : row.userId = userId) : FilesKept userId old (new ++ [row]) := by
  rw [FilesKept, List.filter_append, List.filter_cons_of_neg (by simp [hrow]), List.filter_nil, List.append_nil]
  exact h

end

/-! ## What a response depends on -/

/-- Two tables have the same rows of a kind. -/
def AgreeOn {ρ : Type} (q : ρ → Bool) (l m : List ρ) : Prop := l.filter q = m.filter q

section

variable {ρ : Type} {q : ρ → Bool} {l m : List ρ}

theorem AgreeOn.map (h : AgreeOn q l m) {g : ρ → ρ} (hg : ∀ row, q (g row) = q row) : AgreeOn q (l.map g) (m.map g) := by
  have hq : q ∘ g = q := funext hg
  rw [AgreeOn, List.filter_map, List.filter_map, hq, h]

theorem AgreeOn.mono (h : AgreeOn q l m) {q' : ρ → Bool} (hq : ∀ row, q' row = true → q row = true) :
    AgreeOn q' l m := by
  have hfilter : ∀ rows : List ρ, rows.filter q' = (rows.filter q).filter q' := by
    intro rows
    rw [List.filter_filter]
    refine List.filter_congr fun row _ => ?_
    cases hrow : q' row with
    | false => rfl
    | true => rw [hq row hrow]; rfl
  rw [AgreeOn, hfilter l, hfilter m, h]

end

/-- The next file is given the same id and guid in both worlds, and no row has
an id that is not given out yet. -/
structure SameNextFile (w v : World) : Prop where
  uuids : w.uuids = v.uuids
  nextFile : w.db.nextFile = v.db.nextFile
  fresh : ∀ row ∈ w.db.files, row.id < w.db.nextFile
  fresh' : ∀ row ∈ v.db.files, row.id < v.db.nextFile

/-- The next project is given the same guid in both worlds, and in neither a row
has an id that is not given out yet. -/
structure SameNextProject (w v : World) : Prop where
  uuids : w.uuids = v.uuids
  fresh : ∀ row ∈ w.db.projects, row.id < w.db.nextProject
  fresh' : ∀ row ∈ v.db.projects, row.id < v.db.nextProject

/-- The worlds agree on what the driver does next, and on what the route of the
request depends on: the user's own files or projects where it lists them, the
rows with the guid that it names where it reads one, and where it creates one,
what that is given that the answer tells of. -/
structure Agree (env : Env) (r : HttpRequest) (userId : Int) (w v : World) : Prop where
  faults : w.faults = v.faults
  ownFiles : ListsFiles env r → AgreeOn (·.userId = userId) w.db.files v.db.files
  ownProjects : ListsProjects env r → AgreeOn (·.creatorId = userId) w.db.projects v.db.projects
  readFiles : ∀ guid, ReadsFile env r guid → AgreeOn (·.guid = guid) w.db.files v.db.files
  readProjects : ∀ guid, ReadsProject env r guid → AgreeOn (·.guid = guid) w.db.projects v.db.projects
  createdFile : CreatesFile env r → SameNextFile w v
  createdProject : (∃ creatorId, CreatesProject env r creatorId) → SameNextProject w v

section

variable {ρ : Type} {l : List ρ} {id : ρ → Int} {n : Int}

theorem fresh_append {row : ρ} (h : ∀ x ∈ l, id x < n) (hrow : id row = n) : ∀ x ∈ l ++ [row], id x < n + 1 := by
  intro x hx
  rcases List.mem_append.mp hx with hx | hx
  · have := h x hx
    omega
  · rw [List.mem_singleton.mp hx]
    omega

theorem filter_fresh (h : ∀ x ∈ l, id x < n) : l.filter (id · = n) = [] := by
  rw [List.filter_eq_nil_iff]
  intro x hx
  have := h x hx
  simp only [decide_eq_true_eq]
  omega

end

section

variable {env : Env} {r : HttpRequest} {userId : Int} {w v : World}

/-- A request has one route and one verb. -/
theorem RequestTo.unique {route route' : Bytes} {verb verb' : Verb} (h : RequestTo env r route verb)
    (h' : RequestTo env r route' verb') : route = route' ∧ verb = verb' :=
  ⟨h.path.symm.trans h'.path, h.verb.symm.trans h'.verb⟩

/-- What creates a file reads none. -/
theorem CreatesFile.reads_none (h : CreatesFile env r) :
    ¬ ListsFiles env r ∧ (∀ guid, ¬ ReadsFile env r guid) ∧ ∀ creatorId, ¬ CreatesProject env r creatorId := by
  refine ⟨fun h' => ?_, fun guid h' => ?_, fun creatorId h' => ?_⟩
  · exact absurd (h.unique h').1 (by decide)
  · rcases h' with ⟨h', -⟩ | ⟨h', -⟩
    · exact absurd (h.unique h').2 (by decide)
    · exact absurd (h.unique h').1 (by decide)
  · exact absurd (h.unique h'.1).1 (by decide)

/-- What creates a project reads none. -/
theorem CreatesProject.reads_none {creatorId : Int} (h : CreatesProject env r creatorId) :
    ¬ ListsProjects env r ∧ (∀ guid, ¬ ReadsProject env r guid) ∧ ¬ CreatesFile env r := by
  refine ⟨fun h' => ?_, fun guid h' => ?_, fun h' => ?_⟩
  · exact absurd (h.1.unique h').1 (by decide)
  · rcases h' with ⟨h', -⟩ | ⟨h', -⟩
    · exact absurd (h.1.unique h').2 (by decide)
    · exact absurd (h.1.unique h').2 (by decide)
  · exact absurd (h.1.unique h').1 (by decide)

theorem Agree.next (h : Agree env r userId w v) : Agree env r userId w.next v.next :=
  { h with
    faults := congrArg List.tail h.faults
    createdFile := fun hc => { h.createdFile hc with }
    createdProject := fun hc => { h.createdProject hc with } }

theorem agree_driven : Driven (Agree env r userId) where
  fault w v h := by rw [World.fault, World.fault, h.faults]
  next _ _ h := h.next

theorem Agree.fileInserted (h : Agree env r userId w v) (hc : CreatesFile env r) (f : File) :
    Agree env r userId (insertFile f (env.uuid w.uuids) w) (insertFile f (env.uuid v.uuids) v) := by
  have hn := h.createdFile hc
  obtain ⟨hlists, hreads, hcreates⟩ := hc.reads_none
  refine { h with
    ownFiles := fun hl => absurd hl hlists
    readFiles := fun guid hg => absurd hg (hreads guid)
    createdFile := fun _ => {
      uuids := congrArg (· + 1) hn.uuids
      nextFile := congrArg (· + 1) hn.nextFile
      fresh := fresh_append hn.fresh rfl
      fresh' := fresh_append hn.fresh' rfl }
    createdProject := fun hc => ?_ }
  obtain ⟨creatorId, hp⟩ := hc
  exact absurd hp (hcreates creatorId)

theorem Agree.projectInserted (h : Agree env r userId w v) {creatorId : Int} (hc : CreatesProject env r creatorId)
    (p : Project) :
    Agree env r userId (insertProject p (env.uuid w.uuids) w) (insertProject p (env.uuid v.uuids) v) := by
  have hn := h.createdProject ⟨creatorId, hc⟩
  obtain ⟨hlists, hreads, hcreates⟩ := hc.reads_none
  exact { h with
    ownProjects := fun hl => absurd hl hlists
    readProjects := fun guid hg => absurd hg (hreads guid)
    createdFile := fun hf => absurd hf hcreates
    createdProject := fun _ => {
      uuids := congrArg (· + 1) hn.uuids
      fresh := fresh_append hn.fresh rfl
      fresh' := fresh_append hn.fresh' rfl } }

/-- An `UPDATE` leaves the ids as they are. -/
theorem fresh_updated {p : Project} (h : ∀ row ∈ w.db.projects, row.id < w.db.nextProject) :
    ∀ row ∈ (updateProjects p w).db.projects, row.id < (updateProjects p w).db.nextProject := by
  intro row hrow
  obtain ⟨old, hold, rfl⟩ := List.mem_map.mp hrow
  have := h old hold
  split <;> exact this

theorem Agree.projectsUpdated (h : Agree env r userId w v) (p : Project) :
    Agree env r userId (updateProjects p w) (updateProjects p v) := by
  refine { h with
    ownProjects := fun hl => (h.ownProjects hl).map fun row => ?_
    readProjects := fun guid hg => (h.readProjects guid hg).map fun row => ?_
    createdFile := fun hc => { h.createdFile hc with }
    createdProject := fun hc => {
      uuids := (h.createdProject hc).uuids
      fresh := fresh_updated (h.createdProject hc).fresh
      fresh' := fresh_updated (h.createdProject hc).fresh' } }
  · split <;> rfl
  · split <;> rfl

theorem agree_footprint (u : User) : Footprint env r u (Agree env r u.id) (Agree env r u.id) where
  weaken _ _ := id
  file guid withData hg := fileFillByGuid_alike agree_driven _ _ _ fun w v h => h.readFiles guid hg
  files hl := getFilesForUser_alike agree_driven _ fun w v h => (h.ownFiles hl).mono fun row hrow => by simp_all
  createFile f hc _ := fileCreate_alike agree_driven env f (fun w v h => h.fileInserted hc f) fun w v h => by
    have hn := h.createdFile hc
    rw [World.nextFileRows, World.nextFileRows, filter_fresh hn.fresh, filter_fresh hn.fresh']
    exact ⟨hn.uuids, hn.nextFile, rfl⟩
  project guid hg := projectFillByGuid_alike agree_driven _ _ fun w v h => h.readProjects guid hg
  projects hl := getProjectsForUser_alike agree_driven _ _ fun w v h => h.ownProjects hl
  update p _ := projectUpdate_alike agree_driven p fun w v h => h.projectsUpdated p
  createProject p hc := projectCreate_leads agree_driven agree_driven (fun _ _ => id) env p
    (fun w v h => h.projectInserted hc p) fun w v h => by
      have hn := h.createdProject ⟨_, hc⟩
      rw [World.nextProjectRows, World.nextProjectRows, filter_fresh hn.fresh, filter_fresh hn.fresh']
      exact ⟨hn.uuids, rfl⟩

/-- What a request leaves of the rows of others, call by call. -/
theorem kept_footprint (u : User) (files : List FileRow) (projects : List ProjectRow) :
    Footprint env r u
      (Diag fun w => FilesKept u.id files w.db.files ∧ List.Forall₂ (Touched env r) projects w.db.projects)
      (Diag fun w => FilesKept u.id files w.db.files ∧ ProjectsKept env r projects w.db.projects) :=
  diag_footprint (fun _ h => ⟨h.1, touched_kept h.2⟩) (fun _ h => h) (fun _ h => h)
    (fun _ _ _ _ hf h => ⟨h.1.insert hf, h.2⟩) (fun _ _ hp h => ⟨h.1, touched_update h.2 hp⟩)
    fun _ _ _ hp h => ⟨h.1, touched_insert h.2 hp⟩

/-! ## Through the gate -/

theorem Agree.refreshed (h : Agree env r userId w v) (token : Bytes) (owner : Int) :
    Agree env r userId (AudioToolApi.refreshed token owner w) (AudioToolApi.refreshed token owner v) := by
  rw [AudioToolApi.refreshed, AudioToolApi.refreshed, ← agree_driven.fault w v h]
  split
  · exact h.next
  · exact { h.next with
      createdFile := fun hc => { h.next.createdFile hc with }
      createdProject := fun hc => { h.next.createdProject hc with } }

/-- The request's token is for the same session of the same user. -/
def SameSession (req : Request) (w v : World) : Prop :=
  ∀ token, req.find (text "session-token") = some token → tokenOwner token w = tokenOwner token v

/-- **Users are kept apart.** A request that is let in leaves the files of
other users as they are and adds none of theirs. It leaves every project as it
is but those whose guid `POST /project` names, and adds none but the one
that `PUT /project` asks for, with the owner it asks for. Its answer is the
same wherever the user's session and what its route depends on are. -/
theorem users_isolated (env : Env) {req : Request} {r : HttpRequest} {handler : Handler} {w : World} {s : Serving}
    (hreq : Authenticated env req r handler) (hgate : gate req (atGate env handler w) = .ok true s) :
    FilesKept s.handling.user.id w.db.files
      (left (process env (applicationRoutes env) req w)).handling.world.db.files ∧
    ProjectsKept env r w.db.projects
      (left (process env (applicationRoutes env) req w)).handling.world.db.projects ∧
    ∀ v, SameSession req w v → Agree env r s.handling.user.id w v →
      Same (fun s t => s.written = t.written) (fun _ => True)
        (process env (applicationRoutes env) req w) (process env (applicationRoutes env) req v) := by
  obtain ⟨token, row, owner, ht, hsound, ho, hfault, rfl⟩ := gate_passed_iff.mp hgate
  let u := sessionUser token row owner
  let entered (w : World) : Serving :=
    { atGate env handler w with handling := admitted token row owner (atGate env handler w).handling }
  have hprocess : process env (applicationRoutes env) req w = handle env handler req r (entered w) := by
    rw [hreq.process_eq, serve_passed hreq.auth hgate]
  have hkept : FilesKept u.id w.db.files (entered w).handling.world.db.files ∧
      List.Forall₂ (Touched env r) w.db.projects (entered w).handling.world.db.projects := by
    have hdb := refreshed_db token row.userId (atGate env handler w).handling.world.next.next
    have hfiles : (entered w).handling.world.db.files = w.db.files := by
      show (refreshed token row.userId _).db.files = _
      rw [hdb]
      rfl
    have hprojects : (entered w).handling.world.db.projects = w.db.projects := by
      show (refreshed token row.userId _).db.projects = _
      rw [hdb]
      rfl
    rw [hfiles, hprojects]
    exact ⟨rfl, List.forall₂_same.mpr fun row _ => .refl row⟩
  have hafter := handle_keeps (kept_footprint u w.db.files w.db.projects) req hreq.route hreq.auth hkept rfl rfl
  refine ⟨hprocess ▸ hafter.1, hprocess ▸ hafter.2, fun v hsession hagree => ?_⟩
  have hagree' : Agree env r u.id (atGate env handler w).handling.world (atGate env handler v).handling.world :=
    { hagree with
      createdFile := fun hc => { hagree.createdFile hc with }
      createdProject := fun hc => { hagree.createdProject hc with } }
  have hgate' : gate req (atGate env handler v) = .ok true (entered v) := by
    refine gate_passed_iff.mpr ⟨token, row, owner, ht, hsound.of_eq hagree.faults.symm, ?_, ?_, rfl⟩
    · exact (hsession token ht).symm.trans ho
    · rw [← agree_driven.fault _ _ hagree'.next.next]
      exact hfault
  have hprocess' : process env (applicationRoutes env) req v = handle env handler req r (entered v) := by
    rw [hreq.process_eq, serve_passed hreq.auth hgate']
  have hserved : Served env r u (Agree env r u.id) (entered w) (entered v) :=
    ⟨⟨hagree'.next.next.refreshed token row.userId, rfl, rfl, .inl rfl⟩, rfl⟩
  rw [hprocess, hprocess']
  exact (handle_leads req (run_footprint (agree_footprint u) hreq.route hreq.auth) _ _ hserved).imp fun _ _ h => h.2

end

/-! Two users, of whom the second has a project, and requests of the first. -/

def editBody : Bytes := text "\x7b\"guid\":\"g\",\"name\":\"mine\",\"project_data\":\"x\"\x7d"

def putBody : Bytes := text "\x7b\"creator_id\":2,\"name\":\"mine\"\x7d"

/-- The two bodies parse, and audio decodes to itself. -/
def sampleEnv : Env :=
  { plainEnv with
    parse := fun body =>
      if body = editBody then .ok (jsonify [(text "guid", .string (text "g")), (text "name", .string (text "mine")),
        (text "project_data", .string (text "x"))])
      else if body = putBody then .ok (jsonify [(text "creator_id", .int 2), (text "name", .string (text "mine"))])
      else .error []
    audio := fun content => .output content 44100 }

def twoUsers : World where
  db := {
    users := [{ id := 1, email := text "a@b", hash := repeated 1, nacl := repeated 0 },
      { id := 2, email := text "c@d", hash := repeated 1, nacl := repeated 0 }]
    sessions := [{ id := 1, userId := 1, token := text "t", created := 0, expires := 3600 }]
    projects := [{ id := 1, guid := text "g", creatorId := 2, name := text "theirs", projectData := text "y" }]
    nextProject := 2 }

/-- The project of the second user has another name. -/
def renamed : World :=
  { twoUsers with db := { twoUsers.db with
    projects := [{ id := 1, guid := text "g", creatorId := 2, name := text "changed", projectData := text "y" }] } }

/-- The second user has stored a file. -/
def oneFileMore : World :=
  { twoUsers with db := { twoUsers.db with
    files := [{ id := 1, guid := text "f", name := text "f", data := [], size := 0, created := 0, userId := 2
                sampleRate := 44100 }]
    nextFile := 2 } }

theorem put_ascii : ∀ c ∈ text "PUT", c < 128 := by
  have h : text "PUT" = [80, 85, 84] := by decide
  simp [h]

theorem json_no_NUL :
    ∀ f ∈ [(text "session-token", text "t"), (text "content-type", text "application/json")], 0 ∉ f.2 := by
  decide

theorem multipart_no_NUL :
    ∀ f ∈ [(text "session-token", text "t"), (text "content-type", text "multipart/form-data; boundary=b")], 0 ∉ f.2 := by
  decide

def editProject : Request where
  method := .post
  methodString := text "POST"
  target := text "/project"
  fields := [(text "session-token", text "t"), (text "content-type", text "application/json")]
  body := editBody
  method_ascii := post_ascii
  value_no_NUL := json_no_NUL

def putProject : Request :=
  { editProject with method := .put, methodString := text "PUT", body := putBody, method_ascii := put_ascii }

def getProject : Request :=
  { editProject with
    method := .get, methodString := text "GET", target := text "/project?guid=g", body := [], method_ascii := get_ascii }

def getProjects : Request := { getProject with target := text "/projects" }

def postFile : Request :=
  { editProject with
    target := text "/file?name=n"
    fields := [(text "session-token", text "t"), (text "content-type", text "multipart/form-data; boundary=b")]
    body := text "--b\r\n\r\nx\r\n--b--"
    value_no_NUL := multipart_no_NUL }

def afterRequest (req : Request) (w : World) : Serving := left (process sampleEnv (applicationRoutes sampleEnv) req w)

/-- The first user changes a project of the second, creates one for them, reads
theirs, and sees in the id of a file that they have stored one. -/
theorem users_not_isolated :
    (∀ req ∈ [editProject, putProject, getProject, postFile], passesAs sampleEnv req twoUsers = some 1) ∧
    (afterRequest editProject twoUsers).handling.world.db.projects.filter (·.creatorId ≠ 1) ≠
      twoUsers.db.projects.filter (·.creatorId ≠ 1) ∧
    ((afterRequest putProject twoUsers).handling.world.db.projects.filter (·.creatorId ≠ 1)).length = 2 ∧
    (afterRequest getProject twoUsers).written ≠ (afterRequest getProject renamed).written ∧
    (afterRequest postFile twoUsers).written ≠ (afterRequest postFile oneFileMore).written := by
  refine ⟨?_, ?_, ?_, ?_, ?_⟩ <;> decide +kernel

/-- What the second user calls their project is nothing to the list of the
first. -/
theorem users_isolated_list :
    Same (fun s t => s.written = t.written) (fun _ => True)
      (process sampleEnv (applicationRoutes sampleEnv) getProjects twoUsers)
      (process sampleEnv (applicationRoutes sampleEnv) getProjects renamed) := by
  let r : HttpRequest := {
    verb := .get, path := text "/projects", urlParams := [], contentType := text "application/json", files := []
    body := [] }
  have hreq : Authenticated sampleEnv getProjects r (projectListHandler sampleEnv) := {
    request := by decide
    route := rfl
    auth := rfl }
  have howner : tokenOwner (text "t") twoUsers =
      some ({ id := 1, userId := 1, token := text "t", created := 0, expires := 3600 },
        { id := 1, email := text "a@b", hash := repeated 1, nacl := repeated 0 }) := by
    decide
  have htoken : getProjects.find (text "session-token") = some (text "t") := by decide
  have hsound : (atGate sampleEnv (projectListHandler sampleEnv) twoUsers).handling.world.Sound 2 := nofun
  have hgate := (gate_passed_iff (s := atGate sampleEnv (projectListHandler sampleEnv) twoUsers)).mpr
    ⟨text "t", _, _, htoken, hsound, howner, by decide, rfl⟩
  have hroute {route : Bytes} {verb : Verb} (hne : text "/projects" ≠ route) : ¬ RequestTo sampleEnv r route verb :=
    fun h => hne h.path
  have hfile : text "/projects" ≠ text "/file" := by decide
  have hdata : text "/projects" ≠ text "/file_data" := by decide
  have hproject : text "/projects" ≠ text "/project" := by decide
  refine (users_isolated sampleEnv hreq hgate).2.2 renamed ?_ {
    faults := rfl
    ownFiles := fun _ => rfl
    ownProjects := fun _ => rfl
    readFiles := fun guid hg => ?_
    readProjects := fun guid hg => ?_
    createdFile := fun hc => absurd hc (hroute hfile)
    createdProject := fun hc => ?_ }
  · intro token _
    rfl
  · rcases hg with hg | hg
    · exact absurd hg.1 (hroute hfile)
    · exact absurd hg.1 (hroute hdata)
  · rcases hg with hg | hg
    · exact absurd hg.1 (hroute hproject)
    · exact absurd hg.1 (hroute hproject)
  · obtain ⟨_, hc⟩ := hc
    exact absurd hc.1 (hroute hproject)

end AudioToolApi
