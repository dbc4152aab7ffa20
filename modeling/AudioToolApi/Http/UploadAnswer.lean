/-
What the answer to an upload is worth. `file_handler::post` catches what
`file_model::create` throws, logs it, and answers with the `file_model` it
has; `upload_truthful_iff` says when a 200 still means that the file is
stored.
-/
import AudioToolApi.Handlers.BaseFacts
import AudioToolApi.Http.ProcessFacts
import AudioToolApi.Http.Isolation
import AudioToolApi.Models.FileFacts

namespace AudioToolApi

open Effects

/-! ## The answer -/

/-- What `base_model_handler::finish` makes of a file. -/
def fileAnswer (f : File) : Json := jsonify [(text "output", f.toJson), (text "status", .int 200)]

theorem fileAnswer_eq (f : File) :
    fileAnswer f = .object [
      (text "output", .object [(text "guid", .string f.guid), (text "id", .int f.id), (text "name", .string f.name),
        (text "sample_rate", .int f.sampleRate), (text "size", .int f.size), (text "user_id", .int f.userId)]),
      (text "status", .int 200)] := rfl

/-- Of what it says, the guid and the name can fail to be UTF-8. -/
theorem fileAnswer_utf8 (f : File) : (fileAnswer f).Utf8 ↔ Utf8 f.guid ∧ Utf8 f.name := by
  have hkeys : ∀ k ∈ [text "output", text "guid", text "id", text "name", text "sample_rate", text "size",
      text "user_id", text "status"], Utf8 k := by
    decide +kernel
  simp only [List.forall_mem_cons] at hkeys
  obtain ⟨h1, h2, h3, h4, h5, h6, h7, h8, -⟩ := hkeys
  simp [fileAnswer_eq, Json.Utf8, Json.texts, textsOfMembers, h1, h2, h3, h4, h5, h6, h7, h8]

/-- A JSON body with the status 200: written as it is, or not at all. -/
theorem handle_json {env : Env} {handler : Handler} {req : Request} {r : HttpRequest} {s : Serving} {h : Handling}
    {j : Json} (hs : s.written = []) (hrun : handler.run r s.handling = .ok true h) (hstatus : h.response.status = 200)
    (hj : h.response.content = .json j) :
    (left (handle env handler req r s)).handling = h ∧
      ((j.Utf8 ∧ ∃ response, response.status = 200 ∧ j.dump = .ok response.body ∧
          (left (handle env handler req r s)).written = [response]) ∨
        (¬ j.Utf8 ∧ (left (handle env handler req r s)).written = [])) := by
  have hsend : Sendable h.response ↔ j.Utf8 := by
    rw [Sendable, hstatus, hj]
    exact ⟨fun h => h.2.1, fun h => ⟨by omega, h, rfl⟩⟩
  rw [handle_returned hrun]
  rcases buildResponse_cases h.response { s with handling := h } with
    ⟨hyes, response, hst, -, hbody, hok⟩ | ⟨hno, what, herror⟩
  · rw [hok]
    refine ⟨rfl, .inl ⟨hsend.mp hyes, response, ?_, ?_, ?_⟩⟩
    · rw [hst, hstatus]
      rfl
    · rw [HTTPResponse.getContent, hj] at hbody
      exact hbody
    · show s.written ++ [response] = [response]
      rw [hs, List.nil_append]
  · rw [herror]
    exact ⟨rfl, .inr ⟨hsend.not.mp hno, hs⟩⟩

/-- What is thrown and is no `http_exception` is never answered with 200. -/
theorem handle_error_status {env : Env} {handler : Handler} {req : Request} {r : HttpRequest} {s : Serving}
    {h : Handling} {e : Exn} (hs : s.written = []) (hrun : handler.run r s.handling = .error e h)
    (hhttp : ∀ code what, e ≠ .http code what) :
    ∀ response ∈ (left (handle env handler req r s)).written, response.status ≠ 200 := by
  have htold (message : Bytes) : ∀ response ∈ (left (((do buildError 500 message; return false) >>= fun returned => do
      if returned then buildResponse (← get).handling.response : Serve Unit) { s with handling := h })).written,
      response.status ≠ 200 := by
    rw [bind_assoc]
    by_cases htold : Tellable 500 message
    · obtain ⟨response, hstatus, hok⟩ := buildError_ok htold { s with handling := h }
      rw [bind_ok hok]
      show ∀ response' ∈ s.written ++ [response], response'.status ≠ 200
      simp [hs, hstatus]
    · obtain ⟨what, herror⟩ := buildError_fails htold { s with handling := h }
      rw [bind_error herror]
      show ∀ response ∈ s.written, response.status ≠ 200
      simp [hs]
  rw [handle_thrown hrun]
  cases e with
  | http code what => exact absurd rfl (hhttp code what)
  | runtime what | std what | other => exact htold _
  | gone =>
    show ∀ response ∈ s.written, response.status ≠ 200
    simp [hs]

/-! ## The upload -/

/-- An upload that comes to the audio processor, which accepts it. -/
structure Upload (env : Env) (r : HttpRequest) where
  name : Bytes
  data : Bytes
  sampleRate : Int
  verb : r.verb = .post
  named : r.urlParams.lookup (text "name") = some name
  accepted : r.files.head?.map env.audio = some (.output data sampleRate)

variable {env : Env} {req : Request} {r : HttpRequest}

/-- The `file_model`, before `create`. -/
def Upload.file (u : Upload env r) (userId : Int) : File :=
  { File.new env with size := u.data.length, name := u.name, userId, sampleRate := u.sampleRate, data := u.data }

theorem filePost_upload (u : Upload env r) (h : Handling) :
    filePost env r h = (catchRuntime (inWorld ((u.file h.user.id).create env)) (fun _ => pure (u.file h.user.id)) >>=
      fun f => setResponseData (.file f)) h := by
  obtain ⟨name, data, sampleRate, hverb, hnamed, haccepted⟩ := u
  have hparam : r.hasParam (text "name") = true := by rw [HttpRequest.hasParam, hnamed]; rfl
  rw [filePost, hparam]
  cases hfiles : r.files with
  | nil => simp [hfiles] at haccepted
  | cons file rest =>
    have haudio : env.audio file = .output data sampleRate := by simpa [hfiles] using haccepted
    rw [hnamed]
    show (processAudio env file >>= _) h = _
    rw [processAudio, haudio]
    rfl

/-- The handler, once the request is read. -/
theorem fileHandler_run (u : Upload env r) {h h' : Handling} {j : Json} (hparse : parseJson env r h = .ok j h') :
    (fileHandler env).run r h = (do
      let f ← catchRuntime (inWorld ((u.file h'.user.id).create env)) fun _ => pure (u.file h'.user.id)
      setResponseData (.file f)
      finishModel
      return true) h' := by
  have hmethod : (fileHandler env).method r.verb = some (filePost env) := by rw [u.verb]; rfl
  rw [modelRun_eq rfl rfl hmethod hparse, bind_apply, filePost_upload u h', ← bind_apply, bind_assoc]

/-- The handler, once it has an answer. -/
def Handling.answering (h : Handling) (f : File) (world : World) : Handling :=
  { h with world, responseData := .file f, response := { h.response with content := .json (fileAnswer f) } }

theorem finishModel_file {h : Handling} (hstatus : h.response.status = 200) (f : File) (w : World) :
    finishModel { h with world := w, responseData := .file f } = .ok () (h.answering f w) := by
  rw [Handling.answering, fileAnswer, ← hstatus]
  rfl

theorem fileHandler_answering (u : Upload env r) {h h' : Handling} {j : Json} (hparse : parseJson env r h = .ok j h')
    (hstatus : h'.response.status = 200) {f : File} {w : World}
    (hcreate : catchRuntime (inWorld ((u.file h'.user.id).create env)) (fun _ => pure (u.file h'.user.id)) h' =
      .ok f { h' with world := w }) :
    (fileHandler env).run r h = .ok true (h'.answering f w) := by
  have hset : setResponseData (.file f) { h' with world := w } =
      .ok () { h' with world := w, responseData := .file f } := rfl
  rw [fileHandler_run u hparse, bind_ok hcreate, bind_ok hset]
  exact bind_ok (finishModel_file hstatus f w)

/-! ## What it is worth -/

/-- The serving ends in an answer that is true: a 200 says what is stored, with
the audio, and there is none where `create` fails. -/
structure Truthful (env : Env) (f : File) (before : World) (t : Serving) : Prop where
  stored : ∀ response ∈ t.written, response.status = 200 →
    ∃ f', (fileAnswer f').dump = .ok response.body ∧ f'.data = f.data ∧ ∃ row ∈ t.handling.world.db.files, row.Holds f'
  failed : (∀ f' w, f.create env before ≠ .ok f' w) → ∀ response ∈ t.written, response.status ≠ 200

theorem truthful_of_unsuccessful {f : File} {w : World} {t : Serving}
    (h : ∀ response ∈ t.written, response.status ≠ 200) : Truthful env f w t where
  stored response hmem hstatus := absurd hstatus (h response hmem)
  failed _ := h

section

variable {s : Serving} {h' : Handling} {j : Json} {w : World}

/-- The file is stored. -/
theorem created_truthful (u : Upload env r) (hs : s.written = []) (hparse : parseJson env r s.handling = .ok j h')
    (hstatus : h'.response.status = 200) (hids : Rows.Counted FileRow.id h'.world.db.nextFile h'.world.db.files)
    {f : File} (hcreate : (u.file h'.user.id).create env h'.world = .ok f w) :
    Truthful env (u.file h'.user.id) h'.world (left (handle env (fileHandler env) req r s)) := by
  have hrun := fileHandler_answering u hparse hstatus (f := f) (w := w) (catchRuntime_ok (by rw [inWorld, hcreate]))
  obtain ⟨-, -, row, -, hf⟩ := fileCreate_ok_iff.mp hcreate
  obtain ⟨hhandling, hwritten⟩ := @handle_json env _ req r s _ _ hs hrun hstatus rfl
  refine ⟨fun response hmem _ => ?_, fun hno => absurd hcreate (hno f w)⟩
  obtain ⟨row, hrow, hholds, -⟩ := fileCreate_stored hids hcreate
  rcases hwritten with ⟨-, response', -, hbody, hone⟩ | ⟨-, hnone⟩
  · rw [hone, List.mem_singleton] at hmem
    subst hmem
    refine ⟨f, hbody, by rw [hf], row, ?_, hholds⟩
    rw [hhandling]
    exact hrow
  · rw [hnone] at hmem
    cases hmem

/-- `create` throws, and the file is answered with as it was before. -/
theorem uncreated_truthful_iff (u : Upload env r) (hs : s.written = []) (hparse : parseJson env r s.handling = .ok j h')
    (hstatus : h'.response.status = 200) {what : Bytes}
    (hcreate : (u.file h'.user.id).create env h'.world = .error (.runtime what) w) :
    Truthful env (u.file h'.user.id) h'.world (left (handle env (fileHandler env) req r s)) ↔ ¬ Utf8 u.name := by
  have hcaught : catchRuntime (inWorld ((u.file h'.user.id).create env)) (fun _ => pure (u.file h'.user.id)) h' =
      .ok (u.file h'.user.id) { h' with world := w } := catchRuntime_runtime (by rw [inWorld, hcreate])
  have hrun := fileHandler_answering u hparse hstatus hcaught
  have hutf8 : (fileAnswer (u.file h'.user.id)).Utf8 ↔ Utf8 u.name := by
    have hempty : Utf8 [] := by decide
    rw [fileAnswer_utf8]
    exact and_iff_right hempty
  obtain ⟨-, ⟨hu, response, hstatus200, -, hone⟩ | ⟨hu, hnone⟩⟩ :=
    @handle_json env _ req r s _ _ hs hrun hstatus rfl
  · refine iff_of_false (fun h => ?_) (not_not_intro (hutf8.mp hu))
    refine h.failed (fun f' w' hok => ?_) response (by rw [hone]; exact .head _) hstatus200
    rw [hcreate] at hok
    cases hok
  · refine iff_of_true (truthful_of_unsuccessful ?_) (hutf8.not.mp hu)
    rw [hnone]
    simp

end

/-- Where the gate has let the upload in. -/
theorem handle_truthful_iff (u : Upload env r) {s : Serving} (hs : s.written = []) (hj : s.handling.json = .null)
    (hstatus : s.handling.response.status = 200)
    (hids : Rows.Counted FileRow.id s.handling.world.db.nextFile s.handling.world.db.files) :
    Truthful env (u.file s.handling.user.id) s.handling.world (left (handle env (fileHandler env) req r s)) ↔
      s.handling.world.Sound 2 ∨ s.handling.world.Hangs 2 ∨ ¬ Utf8 u.name ∨ ¬ Returned (sentJson env r) := by
  obtain ⟨h', hread, hparse⟩ := @parseJson_read env r s.handling hj
  obtain ⟨hworld, huser, hresponse⟩ := hread
  cases hsent : sentJson env r with
  | error what =>
    rw [hsent] at hparse
    have hrun : (fileHandler env).run r s.handling = .error (.std what) h' := bind_error (bind_error hparse)
    exact iff_of_true (truthful_of_unsuccessful (handle_error_status hs hrun (by simp))) (by simp)
  | ok j =>
    rw [hsent] at hparse
    simp only at hparse
    have hstatus' : h'.response.status = 200 := by rw [hresponse, hstatus]
    have htakes := fileCreate_takes env (u.file h'.user.id) h'.world
    rw [← huser, ← hworld]
    rw [← hworld] at hids
    cases hcreate : (u.file h'.user.id).create env h'.world with
    | ok f w =>
      exact iff_of_true (created_truthful u hs hparse hstatus' hids hcreate) (.inl (fileCreate_ok_iff.mp hcreate).1)
    | error e w =>
      rw [hcreate] at htakes
      cases htakes with
      | hung hhangs =>
        have hrun : (fileHandler env).run r s.handling = .error .gone { h' with world := w } := by
          rw [fileHandler_run u hparse]
          exact bind_error (catchRuntime_gone (by rw [inWorld, hcreate]))
        exact iff_of_true (truthful_of_unsuccessful (handle_error_status hs hrun (by simp))) (.inr (.inl hhangs))
      | failed hns hno =>
        rw [uncreated_truthful_iff u hs hparse hstatus' hcreate]
        simp [hns, hno]

/-- **The answer to an upload is true exactly when** the driver takes both
statements of `create`, or none is given: one of the two never ends, the name
is not UTF-8, or the body that goes with a JSON content type is not JSON. -/
theorem upload_truthful_iff {w : World} {s : Serving} (u : Upload env r)
    (hreq : Authenticated env req r (fileHandler env)) (hgate : gate req (atGate env (fileHandler env) w) = .ok true s)
    (hids : Rows.Counted FileRow.id w.db.nextFile w.db.files) :
    Truthful env (u.file s.handling.user.id) s.handling.world (left (process env (applicationRoutes env) req w)) ↔
      s.handling.world.Sound 2 ∨ s.handling.world.Hangs 2 ∨ ¬ Utf8 u.name ∨ ¬ Returned (sentJson env r) := by
  rw [hreq.process_eq, serve_passed hreq.auth hgate]
  obtain ⟨token, row, owner, -, -, -, -, rfl⟩ := gate_passed_iff.mp hgate
  have hdb := refreshed_db token row.userId (atGate env (fileHandler env) w).handling.world.next.next
  refine handle_truthful_iff u rfl rfl rfl ?_
  show Rows.Counted FileRow.id (refreshed token row.userId _).db.nextFile (refreshed token row.userId _).db.files
  rw [hdb]
  exact hids

/-- The upload of a byte, as it is read. -/
def oneByte : HttpRequest where
  verb := .post
  path := text "/file"
  urlParams := [(text "name", text "n")]
  contentType := text "multipart/form-data; boundary=b"
  files := [text "x"]
  body := text "--b\r\n\r\nx\r\n--b--"

def oneByteUpload : Upload sampleEnv oneByte where
  name := text "n"
  data := text "x"
  sampleRate := 44100
  verb := rfl
  named := rfl
  accepted := rfl

theorem upload_truthful_one_byte :
    Truthful sampleEnv (oneByteUpload.file 1) (refreshed (text "t") 1 { twoUsers with lastInsertId := 0 })
      (afterRequest postFile twoUsers) := by
  have hreq : Authenticated sampleEnv postFile oneByte (fileHandler sampleEnv) := {
    request := by decide +kernel
    route := rfl
    auth := rfl }
  have howner : tokenOwner (text "t") twoUsers =
      some ({ id := 1, userId := 1, token := text "t", created := 0, expires := 3600 },
        { id := 1, email := text "a@b", hash := repeated 1, nacl := repeated 0 }) := by
    decide +kernel
  have htoken : postFile.find (text "session-token") = some (text "t") := by decide +kernel
  have hsound : (atGate sampleEnv (fileHandler sampleEnv) twoUsers).handling.world.Sound 2 := nofun
  have hgate := (gate_passed_iff (s := atGate sampleEnv (fileHandler sampleEnv) twoUsers)).mpr
    ⟨text "t", _, _, htoken, hsound, howner, by decide, rfl⟩
  have hids : Rows.Counted FileRow.id twoUsers.db.nextFile twoUsers.db.files := ⟨List.nodup_nil, by simp [twoUsers]⟩
  exact (upload_truthful_iff oneByteUpload hreq hgate hids).mpr (.inl nofun)

/-- The driver takes the three statements of the gate, and refuses to store
the file. -/
def refusing : World := { twoUsers with faults := [none, none, none, some (.refused (text "table is full"))] }

/-- The answer is 200, and nothing is stored. -/
theorem refused_upload_answered :
    (afterRequest postFile refusing).written.map (·.status) = [200] ∧
      (afterRequest postFile refusing).handling.world.db.files = [] ∧
        ∀ f w, ¬ Truthful sampleEnv f w (afterRequest postFile refusing) := by
  have hstatus : (afterRequest postFile refusing).written.map (·.status) = [200] := by decide +kernel
  have hfiles : (afterRequest postFile refusing).handling.world.db.files = [] := by decide +kernel
  refine ⟨hstatus, hfiles, fun f w h => ?_⟩
  obtain ⟨response, hmem, h200⟩ : ∃ response ∈ (afterRequest postFile refusing).written, response.status = 200 := by
    refine List.mem_map.mp ?_
    rw [hstatus]
    exact .head _
  obtain ⟨f', -, -, row, hrow, -⟩ := h.stored response hmem h200
  rw [hfiles] at hrow
  cases hrow

end AudioToolApi
