/-
The handlers of the authenticated routes, whole: with `setup`, the method of
the verb and `finish`. `Footprint` collects the calls they may make;
`run_footprint` says that they make no others.
-/
import AudioToolApi.Handlers.Footprint
import AudioToolApi.Models.ModelFootprint
import AudioToolApi.Http.Process

namespace AudioToolApi

open Effects

/-- The request is made to this route, with this verb. -/
structure RequestTo (env : Env) (r : HttpRequest) (route : Bytes) (verb : Verb) : Prop where
  path : strippedPath env r.path = route
  verb : r.verb = verb

/-- The request reads files by this guid: `GET /file` or `GET /file_data`. -/
def ReadsFile (env : Env) (r : HttpRequest) (guid : Bytes) : Prop :=
  RequestTo env r (text "/file") .get ∧ SentMember env r (text "guid") (.string guid) ∨
    RequestTo env r (text "/file_data") .get ∧ SentParam r (text "guid") guid

/-- The request lists the files of the user: `GET /files`. -/
def ListsFiles (env : Env) (r : HttpRequest) : Prop := RequestTo env r (text "/files") .get

/-- The request lists the projects of the user: `GET /projects`. -/
def ListsProjects (env : Env) (r : HttpRequest) : Prop := RequestTo env r (text "/projects") .get

/-- The request creates a file: `POST /file`. -/
def CreatesFile (env : Env) (r : HttpRequest) : Prop := RequestTo env r (text "/file") .post

/-- The request changes the projects with this guid: `POST /project`. -/
def UpdatesProject (env : Env) (r : HttpRequest) (guid : Bytes) : Prop :=
  RequestTo env r (text "/project") .post ∧ SentMember env r (text "guid") (.string guid)

/-- The request reads projects by this guid: `GET /project`, or `POST` before it
changes them. -/
def ReadsProject (env : Env) (r : HttpRequest) (guid : Bytes) : Prop :=
  RequestTo env r (text "/project") .get ∧ SentParam r (text "guid") guid ∨ UpdatesProject env r guid

/-- The request creates a project of this user: `PUT /project`. -/
def CreatesProject (env : Env) (r : HttpRequest) (creatorId : Int) : Prop :=
  RequestTo env r (text "/project") .put ∧ NamesCreator env r creatorId

/-- The calls of the models that handlers make for the request `r` of the
user `u` end the same way in worlds in `R`, and leave them in `R`, or in `R'`
once a project is created: nothing is called after that. -/
structure Footprint (env : Env) (r : HttpRequest) (u : User) (R R' : World → World → Prop) : Prop where
  weaken : ∀ w v, R w v → R' w v
  file : ∀ guid withData, ReadsFile env r guid → Alike R ((File.new env).fillByGuid guid withData) fun _ => True
  files : ListsFiles env r → Alike R (getFilesForUser u.id) fun _ => True
  createFile : ∀ f : File, CreatesFile env r → f.userId = u.id → Alike R (f.create env) fun _ => True
  project : ∀ guid, ReadsProject env r guid → Alike R ((Project.new env).fillByGuid guid) fun p => p.guid = guid
  projects : ListsProjects env r → Alike R (getProjectsForUser u.id false) fun _ => True
  update : ∀ p : Project, UpdatesProject env r p.guid → Alike R p.update fun _ => True
  createProject : ∀ p : Project, CreatesProject env r p.creatorId → Leads R R' (p.create env) fun _ => True

section

variable {env : Env} {r : HttpRequest} {u : User} {R R' : World → World → Prop}

/-- A handler whose methods, where there is one, end the same way. -/
theorem run_leads (hR : ∀ w v, R w v → R' w v) {handler : Handler}
    (hsetup : Alike (Paired env r u R) (handler.setup r) fun _ => True)
    (hmethod : ∀ method, handler.method r.verb = some method →
      Leads (Paired env r u R) (Paired env r u R') (method r) fun _ => True)
    (hfinish : Alike (Paired env r u R') (handler.finish r) fun _ => True) :
    Leads (Paired env r u R) (Paired env r u R') (handler.run r) fun _ => True := by
  refine .bind hsetup (fun _ _ => ?_) (Paired.weaken hR)
  cases hm : handler.method r.verb with
  | none => exact Alike.leads (.pure trivial) (Paired.weaken hR)
  | some method => exact .andThen (hmethod method hm) fun _ _ => .bind hfinish fun _ _ => .pure trivial

/-- A handler of a model: what it does for a verb is what is left to show. -/
theorem model_run_leads (hR : ∀ w v, R w v → R' w v) {handler : Handler}
    (hsetup : handler.setup = fun r => discard (parseJson env r)) (hfinish : handler.finish = fun _ => finishModel)
    (hmethod : ∀ method, handler.method r.verb = some method →
      Leads (Paired env r u R) (Paired env r u R') (method r) fun _ => True) :
    Leads (Paired env r u R) (Paired env r u R') (handler.run r) fun _ => True := by
  refine run_leads hR ?_ hmethod ?_
  · rw [hsetup]
    exact .bind parseJson_alike fun _ _ => .pure trivial
  · rw [hfinish]
    exact finishModel_alike

theorem model_run_alike {handler : Handler} (hsetup : handler.setup = fun r => discard (parseJson env r))
    (hfinish : handler.finish = fun _ => finishModel)
    (hmethod : ∀ method, handler.method r.verb = some method → Alike (Paired env r u R) (method r) fun _ => True) :
    Alike (Paired env r u R) (handler.run r) fun _ => True :=
  model_run_leads (fun _ _ => id) hsetup hfinish hmethod

/-- The methods of a handler that overrides `get`, `post` and `put` at most:
what is true of these and of `notFound` is true of all. -/
theorem method_cases {handler : Handler} {C : Handle Unit → Prop}
    (hrest : handler.head = baseHandler.head ∧ handler.options = baseHandler.options ∧
      handler.delete_ = baseHandler.delete_)
    (hnone : C notFound) (hget : r.verb = .get → C (handler.get r)) (hpost : r.verb = .post → C (handler.post r))
    (hput : r.verb = .put → C (handler.put r)) (method : HttpRequest → Handle Unit)
    (hm : handler.method r.verb = some method) : C (method r) := by
  obtain ⟨hhead, hoptions, hdelete⟩ := hrest
  cases hv : r.verb with
  | get =>
    rw [hv] at hm
    cases hm
    exact hget hv
  | post =>
    rw [hv] at hm
    cases hm
    exact hpost hv
  | put =>
    rw [hv] at hm
    cases hm
    exact hput hv
  | head | options | delete_ =>
    rw [hv] at hm
    cases hm
    simp only [hhead, hoptions, hdelete]
    exact hnone
  | other =>
    rw [hv] at hm
    cases hm

theorem method_alike {handler : Handler}
    (hrest : handler.head = baseHandler.head ∧ handler.options = baseHandler.options ∧
      handler.delete_ = baseHandler.delete_)
    (hget : r.verb = .get → Alike (Paired env r u R) (handler.get r) fun _ => True)
    (hpost : r.verb = .post → Alike (Paired env r u R) (handler.post r) fun _ => True)
    (hput : r.verb = .put → Alike (Paired env r u R) (handler.put r) fun _ => True) (method : HttpRequest → Handle Unit)
    (hm : handler.method r.verb = some method) : Alike (Paired env r u R) (method r) fun _ => True :=
  method_cases (C := fun x => Alike (Paired env r u R) x fun _ => True) hrest notFound_alike hget hpost hput method hm

theorem baseHandler_alike : Alike (Paired env r u R) (baseHandler.run r) fun _ => True := by
  refine run_leads (fun _ _ => id) (.pure trivial) (method_alike ⟨rfl, rfl, rfl⟩ ?_ ?_ ?_) (.pure trivial)
  all_goals exact fun _ => notFound_alike

theorem userHandler_alike : Alike (Paired env r u R) ((userHandler env).run r) fun _ => True :=
  model_run_alike rfl rfl <| method_alike ⟨rfl, rfl, rfl⟩ (fun _ => userGet_alike) (fun _ => notFound_alike)
    fun _ => notFound_alike

theorem fileHandler_alike (h : Footprint env r u R R') (hpath : strippedPath env r.path = text "/file") :
    Alike (Paired env r u R) ((fileHandler env).run r) fun _ => True := by
  refine model_run_alike rfl rfl (method_alike ⟨rfl, rfl, rfl⟩ (fun hv => ?_) (fun hv => ?_) fun _ => notFound_alike)
  · exact fileGet_alike fun guid hg => h.file guid false (.inl ⟨⟨hpath, hv⟩, hg⟩)
  · exact filePost_alike fun f hf _ => h.createFile f ⟨hpath, hv⟩ hf

theorem fileDataHandler_alike (h : Footprint env r u R R') (hpath : strippedPath env r.path = text "/file_data") :
    Alike (Paired env r u R) ((fileDataHandler env).run r) fun _ => True := by
  refine run_leads (fun _ _ => id) (.pure trivial) (method_alike ⟨rfl, rfl, rfl⟩ (fun hv => ?_) (fun _ => notFound_alike)
    fun _ => notFound_alike) (.pure trivial)
  exact fileDataGet_alike fun guid hg => h.file guid true (.inr ⟨⟨hpath, hv⟩, hg⟩)

theorem fileListHandler_alike (h : Footprint env r u R R') (hpath : strippedPath env r.path = text "/files") :
    Alike (Paired env r u R) ((fileListHandler env).run r) fun _ => True :=
  model_run_alike rfl rfl <| method_alike ⟨rfl, rfl, rfl⟩ (fun hv => fileListGet_alike (h.files ⟨hpath, hv⟩))
    (fun _ => notFound_alike) fun _ => notFound_alike

theorem projectHandler_leads (h : Footprint env r u R R') (hpath : strippedPath env r.path = text "/project") :
    Leads (Paired env r u R) (Paired env r u R') ((projectHandler env).run r) fun _ => True := by
  have hpaired : ∀ h k, Paired env r u R h k → Paired env r u R' h k := Paired.weaken h.weaken
  refine model_run_leads h.weaken rfl rfl (method_cases (C := fun x => Leads _ _ x fun _ => True) ⟨rfl, rfl, rfl⟩
    (notFound_alike.leads hpaired) (fun hv => Alike.leads ?_ hpaired) (fun hv => Alike.leads ?_ hpaired) fun hv => ?_)
  · exact projectGet_alike fun guid hg => (h.project guid (.inl ⟨⟨hpath, hv⟩, hg⟩)).mono fun _ _ => trivial
  · exact projectPost_alike (fun guid hg => h.project guid (.inr ⟨⟨hpath, hv⟩, hg⟩)) fun p hp =>
      h.update p ⟨⟨hpath, hv⟩, hp⟩
  · exact projectPut_leads h.weaken fun p hp => h.createProject p ⟨⟨hpath, hv⟩, hp⟩

theorem projectListHandler_alike (h : Footprint env r u R R') (hpath : strippedPath env r.path = text "/projects") :
    Alike (Paired env r u R) ((projectListHandler env).run r) fun _ => True :=
  model_run_alike rfl rfl <| method_alike ⟨rfl, rfl, rfl⟩ (fun hv => projectListGet_alike (h.projects ⟨hpath, hv⟩))
    (fun _ => notFound_alike) fun _ => notFound_alike

/-- **What an authenticated route reaches** is its footprint. -/
theorem run_footprint (h : Footprint env r u R R') {handler : Handler}
    (hroute : findRoute env (applicationRoutes env) r.path = some handler)
    (hauth : handler.requiresAuthentication = true) :
    Leads (Paired env r u R) (Paired env r u R') (handler.run r) fun _ => True := by
  have hpaired : ∀ h k, Paired env r u R h k → Paired env r u R' h k := Paired.weaken h.weaken
  obtain ⟨before, after, hsplit, -⟩ := List.lookup_eq_some_iff.mp hroute
  have hmem : (strippedPath env r.path, handler) ∈ applicationRoutes env := by
    rw [hsplit]
    exact List.mem_append_right _ (.head _)
  simp only [applicationRoutes, List.mem_cons, Prod.mk.injEq, List.not_mem_nil, or_false] at hmem
  rcases hmem with ⟨-, rfl⟩ | ⟨-, rfl⟩ | ⟨-, rfl⟩ | ⟨-, rfl⟩ | ⟨hpath, rfl⟩ | ⟨hpath, rfl⟩ | ⟨hpath, rfl⟩ |
    ⟨hpath, rfl⟩ | ⟨hpath, rfl⟩
  · exact baseHandler_alike.leads hpaired
  · cases hauth
  · cases hauth
  · exact userHandler_alike.leads hpaired
  · exact (fileHandler_alike h hpath).leads hpaired
  · exact (fileDataHandler_alike h hpath).leads hpaired
  · exact (fileListHandler_alike h hpath).leads hpaired
  · exact projectHandler_leads h hpath
  · exact (projectListHandler_alike h hpath).leads hpaired

/-! ## The response -/

/-- Two servings of the request, which differ in nothing but their worlds. -/
def Served (env : Env) (r : HttpRequest) (u : User) (R : World → World → Prop) (s t : Serving) : Prop :=
  Paired env r u R s.handling t.handling ∧ s.written = t.written

theorem inHandler_leads {α : Type} {x : Handle α} {P : α → Prop}
    (hx : Leads (Paired env r u R) (Paired env r u R') x P) : Leads (Served env r u R) (Served env r u R') (inHandler x) P := by
  intro s t hR
  have hs := hx _ _ hR.1
  rw [inHandler, inHandler]
  generalize x s.handling = v at hs ⊢
  generalize x t.handling = w at hs ⊢
  cases hs with
  | ok ha hR' => exact .ok ha ⟨hR', hR.2⟩
  | error hR' => exact .error ⟨hR', hR.2⟩

theorem preparePayload_alike {R : Serving → Serving → Prop} (status : Nat) (body : Bytes) :
    Alike R (preparePayload status body) fun _ => True := by
  rw [preparePayload]
  split
  · exact .throw _
  · exact .pure trivial

theorem write_alike (response : Response) : Alike (Served env r u R) (write response) fun _ => True := by
  refine .modify fun s t hR => ⟨hR.1, ?_⟩
  rw [hR.2]

theorem buildError_alike (status : Nat) (message : Bytes) :
    Alike (Served env r u R) (buildError status message) fun _ => True :=
  .bind (orThrow_alike _) fun _ _ => .bind (preparePayload_alike _ _) fun _ _ => write_alike _

theorem buildResponse_alike (response : HTTPResponse) :
    Alike (Served env r u R) (buildResponse response) fun _ => True := by
  refine .bind (P := fun _ => True) ?_ fun _ _ => .bind (orThrow_alike _) fun _ _ =>
    .bind (preparePayload_alike _ _) fun _ _ => write_alike _
  rw [checkStatus]
  split
  · exact .pure trivial
  · exact .throw _

theorem answerException_alike (e : Exn) : Alike (Served env r u R) (answerException env e) fun _ => True := by
  cases e with
  | http code what | runtime what | std what | other =>
    exact .bind (buildError_alike _ _) fun _ _ => .pure trivial
  | gone => exact .throw _

/-- The `try` block, its `catch` clauses and the response, if the handler ends
the same way. -/
theorem handle_leads {handler : Handler} (req : Request)
    (hrun : Leads (Paired env r u R) (Paired env r u R') (handler.run r) fun _ => True) :
    Leads (Served env r u R) (Served env r u R') (handle env handler req r) fun _ => True := by
  have hhandler : Leads (Served env r u R) (Served env r u R') (runHandler handler req r) fun _ => True := by
    refine .andThen (inHandler_leads hrun) fun known _ => ?_
    cases known with
    | true => exact .pure trivial
    | false => exact .bind (buildError_alike _ _) fun _ _ => .pure trivial
  refine .andThen (.tryCatch hhandler answerException_alike) fun returned _ => ?_
  cases returned with
  | false => exact .pure trivial
  | true =>
    intro s t hR
    have hsame : s.handling.response = t.handling.response := by rw [← hR.1.same]
    have hbuild := buildResponse_alike s.handling.response s t hR
    have hget : ∀ s, (do buildResponse (← get).handling.response : Serve Unit) s =
        buildResponse s.handling.response s := fun _ => rfl
    rw [if_pos rfl, hget, hget, ← hsame]
    exact hbuild

/-! ## One run -/

section

variable {I J : World → Prop}

/-- What the changes of a request keep, all its calls keep. -/
theorem diag_footprint (hweaken : ∀ w, I w → J w) (hnext : ∀ w, I w → I w.next) (hnext' : ∀ w, J w → J w.next)
    (hfile : ∀ (f : File) guid w, CreatesFile env r → f.userId = u.id → I w → I (insertFile f guid w))
    (hupdate : ∀ (p : Project) w, UpdatesProject env r p.guid → I w → I (updateProjects p w))
    (hproject : ∀ (p : Project) guid w, CreatesProject env r p.creatorId → I w → J (insertProject p guid w)) :
    Footprint env r u (Diag I) (Diag J) where
  weaken _ _ h := ⟨h.1, hweaken _ h.2⟩
  file guid withData _ := fileFillByGuid_alike (diag_driven hnext) _ _ _ fun w v h => by rw [h.1]
  files _ := getFilesForUser_alike (diag_driven hnext) _ fun w v h => by rw [h.1]
  createFile f hc hf := by
    refine fileCreate_alike (diag_driven hnext) env f (fun w v h => ⟨by rw [h.1], hfile f _ w hc hf h.2⟩) fun w v h => ?_
    rw [h.1]
    exact ⟨rfl, rfl, rfl⟩
  project guid _ := projectFillByGuid_alike (diag_driven hnext) _ _ fun w v h => by rw [h.1]
  projects _ := getProjectsForUser_alike (diag_driven hnext) _ _ fun w v h => by rw [h.1]
  update p hp := projectUpdate_alike (diag_driven hnext) p fun w v h => ⟨by rw [h.1], hupdate p w hp h.2⟩
  createProject p hp := by
    refine projectCreate_leads (diag_driven hnext) (diag_driven hnext') (fun w v h => ⟨h.1, hweaken w h.2⟩) env p
      (fun w v h => ⟨by rw [h.1], hproject p _ w hp h.2⟩) fun w v h => ?_
    rw [h.1]
    exact ⟨rfl, rfl⟩

/-- **An invariant of the changes of a request** holds after it is handled. -/
theorem handle_keeps (hI : Footprint env r u (Diag I) (Diag J)) {handler : Handler} (req : Request)
    (hroute : findRoute env (applicationRoutes env) r.path = some handler)
    (hauth : handler.requiresAuthentication = true) {s : Serving} (hworld : I s.handling.world)
    (huser : s.handling.user = u) (hjson : s.handling.json = .null) :
    J (left (handle env handler req r s)).handling.world := by
  have hsame := handle_leads req (run_footprint hI hroute hauth) s s ⟨⟨⟨rfl, hworld⟩, rfl, huser, .inl hjson⟩, rfl⟩
  exact hsame.left.1.world.2

end

end

end AudioToolApi
