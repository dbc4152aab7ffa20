/-
An upload under a name that is not UTF-8: the file is stored, and its uploader
is not answered. `GET /files` lists every file by its name, and no file is ever
removed, so the user's list is never had again (`upload_loses_list`).
-/
import AudioToolApi.Http.Store
import AudioToolApi.Http.UploadAnswer
import AudioToolApi.Models.UserRows
import AudioToolApi.Utilities.JsonUtf8

namespace AudioToolApi

open Effects

variable {env : Env} {req : Request} {r : HttpRequest} {w : World}

/-! ## Runs -/

/-- What the models keep, and time does, holds throughout a run. -/
theorem serverRun_keeps {I : World → Prop} (h : ModelsKeep env I)
    (htick : ∀ w (seconds : Nat), I w → I { w with now := w.now + seconds }) (events : List ServerEvent) :
    ∀ {w : World}, I w → I (serverRun env w events) := by
  induction events with
  | nil => exact fun hw => hw
  | cons event events ih =>
    intro w hw
    cases event with
    | tick seconds => exact ih (htick w seconds hw)
    | request req faults => exact ih (process_keeps h req (h.faults w faults hw))

/-- The user has a file of a name that is not UTF-8. -/
def Poisoned (userId : Int) (w : World) : Prop :=
  ∃ f ∈ w.db.files, f.userId = userId ∧ f.isDeleted = false ∧ ¬ Utf8 f.name

theorem Poisoned.kept (userId : Int) : ModelsKeep env (Poisoned userId) where
  faults _ _ h := h
  connect _ h := h
  draw _ h := h
  user _ _ _ _ _ _ h := h
  session _ _ _ h := h
  refresh _ _ _ h := h
  file _ _ _ _ h := by
    obtain ⟨f, hf, hrest⟩ := h
    exact ⟨f, List.mem_append_left _ hf, hrest⟩
  project _ _ h := h
  update _ _ h := h

/-! ## The list -/

theorem fileJson_utf8 (f : File) : f.toJson.Utf8 ↔ Utf8 f.guid ∧ Utf8 f.name := by
  refine (Json.utf8_jsonify_iff ?_).trans (by simp [utf8_text])
  show [text "id", text "size", text "guid", text "name", text "sample_rate", text "user_id"].Nodup
  decide

/-- What `get_files_for_user` returns. -/
def listedFiles (userId : Int) (w : World) : List File := (filesOfUser userId w).map File.ofRow

theorem getFilesForUser_ok (userId : Int) (hfault : w.fault = none) :
    getFilesForUser userId w = .ok (listedFiles userId w) w.next := by
  rw [getFilesForUser, bind_ok (select_ok hfault)]
  rfl

/-- The answer with a list. -/
def listJson (fs : List File) : Json := jsonify [(text "output", .array (fs.map File.toJson)), (text "status", .int 200)]

theorem listJson_utf8 (fs : List File) : (listJson fs).Utf8 ↔ ∀ f ∈ fs, Utf8 f.guid ∧ Utf8 f.name := by
  refine (Json.utf8_jsonify_iff ?_).trans (by simp [utf8_text, fileJson_utf8])
  show [text "output", text "status"].Nodup
  decide

theorem Poisoned.list {userId : Int} (h : Poisoned userId w) : ¬ (listJson (listedFiles userId w)).Utf8 := by
  obtain ⟨f, hf, huser, hdeleted, hname⟩ := h
  intro hutf8
  have hlisted : File.ofRow f ∈ listedFiles userId w :=
    List.mem_map_of_mem (List.mem_filter.mpr ⟨hf, decide_eq_true ⟨huser, hdeleted⟩⟩)
  exact hname ((listJson_utf8 _).mp hutf8 _ hlisted).2

def Handling.listing (h : Handling) (fs : List File) : Handling :=
  { h with
    world := h.world.next
    responseData := .files fs
    response := { h.response with content := .json (listJson fs) } }

theorem fileList_run {h h' : Handling} {j : Json} (hverb : r.verb = .get) (hparse : parseJson env r h = .ok j h')
    (hstatus : h'.response.status = 200) (hfault : h'.world.fault = none) :
    (fileListHandler env).run r h = .ok true (h'.listing (listedFiles h'.user.id h'.world)) := by
  have hmethod : (fileListHandler env).method r.verb = some fun _ => fileListGet := by rw [hverb]; rfl
  have hlist : inWorld (getFilesForUser h'.user.id) h' =
      .ok (listedFiles h'.user.id h'.world) { h' with world := h'.world.next } := by
    rw [inWorld, getFilesForUser_ok _ hfault]
  have hget : fileListGet h' =
      .ok () { h' with world := h'.world.next, responseData := .files (listedFiles h'.user.id h'.world) } := bind_ok hlist
  rw [modelRun_eq rfl rfl hmethod hparse, bind_ok hget, Handling.listing, listJson, ← hstatus]
  rfl

theorem fileList_error {h h' : Handling} {j : Json} (hverb : r.verb = .get) (hparse : parseJson env r h = .ok j h')
    {f : Fault} (hfault : h'.world.fault = some f) :
    ∃ e h'', (fileListHandler env).run r h = .error e h'' ∧ ∀ code what, e ≠ .http code what := by
  have hmethod : (fileListHandler env).method r.verb = some fun _ => fileListGet := by rw [hverb]; rfl
  have hget {e : Exn} {v : World} (hselect : getFilesForUser h'.user.id h'.world = .error e v) :
      fileListGet h' = .error e { h' with world := v } := by
    have hlist : inWorld (getFilesForUser h'.user.id) h' = .error e { h' with world := v } := by rw [inWorld, hselect]
    show (inWorld (getFilesForUser h'.user.id) >>= fun fs => setResponseData (.files fs)) h' = _
    exact bind_error hlist
  rw [modelRun_eq rfl rfl hmethod hparse]
  rcases @select_fault _ (filesOfUser h'.user.id) _ _ hfault with ⟨what, hselect, -⟩ | ⟨hselect, -⟩
  · exact ⟨_, _, bind_error (hget (bind_error hselect)), by simp⟩
  · exact ⟨_, _, bind_error (hget (bind_error hselect)), by simp⟩

/-- The list of a user is lost: a request for it is never answered with 200,
and if its statement is taken, it is not answered at all. -/
def ListLost (env : Env) (userId : Int) (w : World) : Prop :=
  ∀ req r faults s, Authenticated env req r (fileListHandler env) → r.verb = .get →
    gate req (atGate env (fileListHandler env) { w with faults }) = .ok true s → s.handling.user.id = userId →
    (∀ response ∈ (left (process env (applicationRoutes env) req { w with faults })).written, response.status ≠ 200) ∧
      (Returned (sentJson env r) → s.handling.world.fault = none →
        (left (process env (applicationRoutes env) req { w with faults })).written = [])

/-- The handler, once the gate has let the request in. -/
theorem poisoned_handle {s : Serving} (hverb : r.verb = .get) (hs : s.written = []) (hj : s.handling.json = .null)
    (hstatus : s.handling.response.status = 200) (h : Poisoned s.handling.user.id s.handling.world) :
    (∀ response ∈ (left (handle env (fileListHandler env) req r s)).written, response.status ≠ 200) ∧
      (Returned (sentJson env r) → s.handling.world.fault = none →
        (left (handle env (fileListHandler env) req r s)).written = []) := by
  obtain ⟨h', ⟨hworld, huser, hresponse⟩, hparse⟩ := @parseJson_read env r s.handling hj
  have hstatus' : h'.response.status = 200 := by rw [hresponse, hstatus]
  rw [← hworld, ← huser] at h
  rw [← hworld]
  cases hsent : sentJson env r with
  | error what =>
    rw [hsent] at hparse
    have hrun : (fileListHandler env).run r s.handling = .error (.std what) h' := bind_error (bind_error hparse)
    exact ⟨handle_error_status hs hrun (by simp), fun hread => absurd hread (by simp)⟩
  | ok j =>
    rw [hsent] at hparse
    cases hfault : h'.world.fault with
    | some f =>
      obtain ⟨e, h'', hrun, hhttp⟩ := fileList_error hverb hparse hfault
      exact ⟨handle_error_status hs hrun hhttp, fun _ hnone => nomatch hnone⟩
    | none =>
      have hrun := fileList_run hverb hparse hstatus' hfault
      obtain ⟨-, ⟨hutf8, -⟩ | ⟨-, hnone⟩⟩ := @handle_json _ _ req _ _ _ _ hs hrun hstatus' rfl
      · exact absurd hutf8 h.list
      · rw [hnone]
        simp

theorem Poisoned.listLost {userId : Int} (h : Poisoned userId w) : ListLost env userId w := by
  intro req r faults s hreq hverb hgate hid
  rw [hreq.process_eq, serve_passed hreq.auth hgate]
  obtain ⟨token, row, owner, -, -, -, -, rfl⟩ := gate_passed_iff.mp hgate
  refine poisoned_handle hverb rfl rfl rfl ?_
  rw [hid]
  obtain ⟨f, hf, hrest⟩ := h
  refine ⟨f, ?_, hrest⟩
  show f ∈ (refreshed token row.userId _).db.files
  rw [refreshed_db]
  exact hf

/-! ## The upload -/

/-- Whatever becomes of the confirmation, the row is there. -/
theorem fileCreate_inserts {f : File} (hexec : w.Executes 0) :
    ∃ row ∈ (left (f.create env w)).db.files, row.userId = f.userId ∧ row.isDeleted = false ∧ row.name = f.name := by
  let row := f.newRow (env.uuid w.uuids) w.next
  refine ⟨row, ?_, rfl, rfl, rfl⟩
  have hinserted : row ∈ (withFile env f w).db.files := List.mem_append_right _ (.head _)
  have hrest : Alike (Diag fun v : World => row ∈ v.db.files) (do
      let rows ← select fun v => v.db.files.filter (·.id = v.lastInsertId)
      let row ← firstRow (text "Failed to confirm file insert") rows
      return { f with id := row.id, guid := row.guid } : Act File) fun _ => True :=
    .bind (select_alike (diag_driven fun _ h => h) fun _ _ h => by rw [h.1]) fun rows _ =>
      (firstRow_alike _ rows).bind fun _ _ => .pure trivial
  rw [File.create]
  rcases hexec with hfault | ⟨what, hfault⟩
  · have hinsert : execute (fun w => insertFile f (env.uuid w.uuids) w) w = .ok () (withFile env f w) := by
      rw [execute, statement, hfault]
      rfl
    rw [bind_ok hinsert]
    exact hrest.kept hinserted
  · have hinsert : execute (fun w => insertFile f (env.uuid w.uuids) w) w = .error (.runtime what) (withFile env f w) := by
      rw [execute, statement, hfault]
      rfl
    rw [bind_error hinsert]
    exact hinserted

theorem poisonedUpload_handle (u : Upload env r) (hname : ¬ Utf8 u.name) {s : Serving} (hs : s.written = [])
    (hj : s.handling.json = .null) (hstatus : s.handling.response.status = 200) (hread : Returned (sentJson env r))
    (hexec : s.handling.world.Executes 0) :
    (left (handle env (fileHandler env) req r s)).written = [] ∧
      Poisoned s.handling.user.id (left (handle env (fileHandler env) req r s)).handling.world := by
  obtain ⟨h', ⟨hworld, huser, hresponse⟩, hparse⟩ := @parseJson_read env r s.handling hj
  obtain ⟨j, hsent⟩ := hread
  have hstatus' : h'.response.status = 200 := by rw [hresponse, hstatus]
  rw [hsent] at hparse
  rw [← hworld] at hexec
  rw [← huser]
  obtain ⟨row, hrow, hid, hdeleted, hrowName⟩ := @fileCreate_inserts env _ (u.file h'.user.id) hexec
  have hpoisoned : Poisoned h'.user.id (left ((u.file h'.user.id).create env h'.world)) :=
    ⟨row, hrow, hid, hdeleted, by rwa [hrowName]⟩
  have hanswered {f : File} {w : World} (hf : f.name = u.name) (hw : Poisoned h'.user.id w)
      (hrun : (fileHandler env).run r s.handling = .ok true (h'.answering f w)) :
      (left (handle env (fileHandler env) req r s)).written = [] ∧
        Poisoned h'.user.id (left (handle env (fileHandler env) req r s)).handling.world := by
    obtain ⟨hhandling, ⟨hutf8, -⟩ | ⟨-, hnone⟩⟩ := @handle_json _ _ req _ _ _ _ hs hrun hstatus' rfl
    · exact absurd (hf ▸ ((fileAnswer_utf8 f).mp hutf8).2) hname
    · exact ⟨hnone, hhandling ▸ hw⟩
  have htakes := fileCreate_takes env (u.file h'.user.id) h'.world
  cases hcreate : (u.file h'.user.id).create env h'.world with
  | ok f w =>
    rw [hcreate] at hpoisoned
    obtain ⟨-, -, row, -, hf⟩ := fileCreate_ok_iff.mp hcreate
    have hin : inWorld ((u.file h'.user.id).create env) h' = .ok f { h' with world := w } := by rw [inWorld, hcreate]
    exact hanswered (congrArg File.name hf) hpoisoned (fileHandler_answering u hparse hstatus' (catchRuntime_ok hin))
  | error e w =>
    rw [hcreate] at hpoisoned htakes
    cases htakes with
    | @failed what _ =>
      have hin : inWorld ((u.file h'.user.id).create env) h' = .error (.runtime what) { h' with world := w } := by
        rw [inWorld, hcreate]
      exact hanswered rfl hpoisoned (fileHandler_answering u hparse hstatus' (catchRuntime_runtime hin))
    | hung =>
      have hrun : (fileHandler env).run r s.handling = .error .gone { h' with world := w } := by
        rw [fileHandler_run u hparse]
        exact bind_error (catchRuntime_gone (by rw [inWorld, hcreate]))
      rw [handle_thrown hrun]
      exact ⟨hs, hpoisoned⟩

/-- **An upload whose name is not UTF-8 takes its user's list away**: once its
`INSERT` runs, the upload is not answered, and whatever is requested afterwards
and whoever requests it, the list is lost. -/
theorem upload_loses_list {s : Serving} (u : Upload env r) (hname : ¬ Utf8 u.name)
    (hreq : Authenticated env req r (fileHandler env)) (hgate : gate req (atGate env (fileHandler env) w) = .ok true s)
    (hread : Returned (sentJson env r)) (hexec : s.handling.world.Executes 0) :
    (left (process env (applicationRoutes env) req w)).written = [] ∧ ∀ events, ListLost env s.handling.user.id
      (serverRun env (left (process env (applicationRoutes env) req w)).handling.world events) := by
  have hhandle : (left (process env (applicationRoutes env) req w)).written = [] ∧
      Poisoned s.handling.user.id (left (process env (applicationRoutes env) req w)).handling.world := by
    rw [hreq.process_eq, serve_passed hreq.auth hgate]
    obtain ⟨token, row, owner, -, -, -, -, rfl⟩ := gate_passed_iff.mp hgate
    exact poisonedUpload_handle u hname rfl rfl rfl hread hexec
  exact ⟨hhandle.1, fun events =>
    (serverRun_keeps (Poisoned.kept s.handling.user.id) (fun _ _ h => h) events hhandle.2).listLost⟩

/-- `POST /file?name=` and the byte 0xFF. -/
def poisonByte : Request := { uploadByte with target := text "/file?name=" ++ [0xFF] }

def poisonHttpRequest : HttpRequest := { oneByte with urlParams := [(text "name", [0xFF])] }

def poisonUpload : Upload durableEnv poisonHttpRequest where
  name := [0xFF]
  data := text "x"
  sampleRate := 44100
  verb := rfl
  named := rfl
  accepted := rfl

theorem poisonByte_parsed : httpRequest poisonByte = some poisonHttpRequest := by
  decide

theorem poisonByte_loses_list :
    (left (process durableEnv (applicationRoutes durableEnv) poisonByte loggedIn)).written = [] ∧
      ∀ events, ListLost durableEnv 1 (serverRun durableEnv
        (left (process durableEnv (applicationRoutes durableEnv) poisonByte loggedIn)).handling.world events) := by
  have hreq : Authenticated durableEnv poisonByte poisonHttpRequest (fileHandler durableEnv) := {
    request := poisonByte_parsed
    route := rfl
    auth := rfl }
  have howner : tokenOwner (base64Encode (repeated 0)) loggedIn =
      some ({ id := 1, userId := 1, token := base64Encode (repeated 0), created := 0, expires := 3600 },
        { id := 1, email := text "a@b", hash := repeated 1, nacl := repeated 0 }) := by
    simp [tokenOwner, liveSessions, loggedIn]
  have htoken : poisonByte.find (text "session-token") = some (base64Encode (repeated 0)) := by
    simp [poisonByte, uploadByte, Request.find, iequals]
  have hsound : (atGate durableEnv (fileHandler durableEnv) loggedIn).handling.world.Sound 2 := by
    simp [World.Sound, atGate, Handler.construct, loggedIn]
  have hnone : (atGate durableEnv (fileHandler durableEnv) loggedIn).handling.world.next.next.fault ≠ some .hung := by
    decide
  have hgate := (gate_passed_iff (s := atGate durableEnv (fileHandler durableEnv) loggedIn)).mpr
    ⟨_, _, _, htoken, hsound, howner, hnone, rfl⟩
  have hname : ¬ Utf8 poisonUpload.name := by decide
  exact upload_loses_list poisonUpload hname hreq hgate ⟨.null, rfl⟩ (.inl rfl)

end AudioToolApi
