/-
What was uploaded can be had back: whatever happens to the store afterwards,
each `GET /file_data` for the guid that the upload was answered with is
answered with the processed audio, byte for byte.
-/
import AudioToolApi.Http.Store
import AudioToolApi.Http.UploadAnswer

namespace AudioToolApi

open Effects

/-- Every `GET /file_data` for the guid that is let in, and whose statement is
taken, has this answer. -/
def ServesFile (env : Env) (guid data : Bytes) (w : World) : Prop :=
  ∀ req r faults s, Authenticated env req r (fileDataHandler env) → r.verb = .get →
    r.urlParams.lookup (text "guid") = some guid →
    gate req (atGate env (fileDataHandler env) { w with faults }) = .ok true s → s.handling.world.fault = none →
    (left (process env (applicationRoutes env) req { w with faults })).written =
      [{ status := 200, contentType := text "application/octet", headers := baseHeaders, body := data }]

variable {env : Env} {w : World}

/-- Where `UUID()` does not repeat itself, a file is the only one of its guid. -/
theorem Consistent.guids_unique (h : Consistent env w) (huuid : ∀ j k, env.uuid j = env.uuid k → j = k) :
    Rows.Unique FileRow.guid w.db.files := by
  obtain ⟨fs, ps, hfs, -, hnodup, -⟩ := h.guids
  rw [Rows.Unique, hfs]
  exact (List.nodup_append.mp hnodup).1.map fun j k => huuid j k

theorem fileFill_row {f : FileRow} (hunique : Rows.Unique FileRow.guid w.db.files) (hf : f ∈ w.db.files)
    (hfault : w.fault = none) (start : File) :
    start.fillByGuid f.guid true w = .ok { start.fill f true with guid := f.guid } w.next := by
  refine selectRow_ok_iff.mpr ⟨hfault, f, ?_, rfl⟩
  show (w.db.files.filter fun r => r.guid = f.guid).head? = some f
  rw [hunique.filter_eq hf]
  rfl

theorem fileDataGet_row {r : HttpRequest} {h : Handling} {f : FileRow}
    (hguid : r.urlParams.lookup (text "guid") = some f.guid)
    (hunique : Rows.Unique FileRow.guid h.world.db.files) (hf : f ∈ h.world.db.files) (hfault : h.world.fault = none) :
    fileDataGet env r h = .ok () { h with
      world := h.world.next
      response := { h.response with content := .body f.data, contentType := text "application/octet" } } := by
  have hparam : r.hasParam (text "guid") = true := by rw [HttpRequest.hasParam, hguid]; rfl
  have hfill : inWorld ((File.new env).fillByGuid f.guid true) h =
      .ok { (File.new env).fill f true with guid := f.guid } { h with world := h.world.next } := by
    rw [inWorld, fileFill_row hunique hf hfault]
  rw [fileDataGet, hparam, hguid]
  exact bind_ok hfill

theorem dataHandler_run {r : HttpRequest} {h h' : Handling} (hverb : r.verb = .get)
    (hget : fileDataGet env r h = .ok () h') : (fileDataHandler env).run r h = .ok true h' := by
  have hmethod : (fileDataHandler env).method r.verb = some (fileDataGet env) := by rw [hverb]; rfl
  have hsetup : (fileDataHandler env).setup r = pure () := rfl
  rw [Handler.run, hsetup, pure_bind, hmethod]
  exact bind_ok hget

/-- A body that is sent as it is. -/
theorem buildResponse_data {response : HTTPResponse} {body : Bytes} {s : Serving} (hstatus : response.status = 200)
    (hbody : response.content = .body body) :
    buildResponse response s = .ok () { s with written := s.written ++
      [{ status := 200, contentType := response.contentType, headers := response.headers, body }] } := by
  have hcheck : checkStatus response.status s = .ok () s := by rw [hstatus]; rfl
  have hcontent : (orThrow response.getContent : Serve Bytes) s = .ok body s := by
    rw [HTTPResponse.getContent, hbody]
    rfl
  have hbodiless : bodiless 200 = true → body = [] := fun h => absurd h (by decide)
  rw [buildResponse, bind_ok hcheck, bind_ok hcontent, hstatus]
  exact preparePayload_ok hbodiless

/-- A file that is stored is served. -/
theorem Consistent.servesFile (h : Consistent env w) (huuid : ∀ j k, env.uuid j = env.uuid k → j = k) {f : FileRow}
    (hf : f ∈ w.db.files) : ServesFile env f.guid f.data w := by
  intro req r faults s hreq hverb hguid hgate hfault
  rw [hreq.process_eq, serve_passed hreq.auth hgate]
  obtain ⟨token, row, owner, -, -, -, -, rfl⟩ := gate_passed_iff.mp hgate
  let start : World := { w with faults, lastInsertId := 0 }
  have hfiles : (refreshed token row.userId start.next.next).db.files = w.db.files := by rw [refreshed_db]; rfl
  have hget : fileDataGet env r (admitted token row owner (atGate env (fileDataHandler env) { w with faults }).handling) =
      .ok () _ := fileDataGet_row hguid
    (by show Rows.Unique _ (refreshed token row.userId start.next.next).db.files
        rw [hfiles]
        exact h.guids_unique huuid)
    (by show _ ∈ (refreshed token row.userId start.next.next).db.files
        rw [hfiles]
        exact hf) hfault
  have hmethod : (fileDataHandler env).method r.verb = some (fileDataGet env) := by rw [hverb]; rfl
  have hrun : (fileDataHandler env).run r _ = .ok true _ := dataHandler_run hverb hget
  rw [handle_returned hrun, buildResponse_data rfl rfl]
  rfl

/-- **What was uploaded is served ever after**: an upload that is answered
with 200, its statements taken, is had back by the guid in the answer,
whatever happens in between. -/
theorem uploaded_file_served {r : HttpRequest} {req : Request} {s : Serving} {response : Response}
    (huuid : ∀ j k, env.uuid j = env.uuid k → j = k) (h : Consistent env w) (hkeyed : w.db.Keyed) (u : Upload env r)
    (hreq : Authenticated env req r (fileHandler env)) (hgate : gate req (atGate env (fileHandler env) w) = .ok true s)
    (hsound : s.handling.world.Sound 2)
    (hanswer : response ∈ (left (process env (applicationRoutes env) req w)).written) (hstatus : response.status = 200) :
    ∃ f : File, (fileAnswer f).dump = .ok response.body ∧ ∀ events, ServesFile env f.guid u.data
      (serverRun env (left (process env (applicationRoutes env) req w)).handling.world events) := by
  have hafter : Consistent env (left (process env (applicationRoutes env) req w)).handling.world :=
    process_keeps (consistent_kept env) req h
  have htruthful : Truthful env (u.file s.handling.user.id) s.handling.world
      (left (process env (applicationRoutes env) req w)) := by
    rw [hreq.process_eq, serve_passed hreq.auth hgate]
    obtain ⟨token, row, owner, -, -, -, -, rfl⟩ := gate_passed_iff.mp hgate
    have hdb := refreshed_db token row.userId (atGate env (fileHandler env) w).handling.world.next.next
    refine (handle_truthful_iff u rfl rfl rfl ?_).mpr (.inl hsound)
    show Rows.Counted FileRow.id (refreshed token row.userId _).db.nextFile (refreshed token row.userId _).db.files
    rw [hdb]
    exact hkeyed.files.counted
  obtain ⟨f, hbody, hdata, row, hrow, hholds⟩ := htruthful.stored response hanswer hstatus
  refine ⟨f, hbody, fun events => ?_⟩
  obtain ⟨hconsistent, hgrown⟩ := serverRun_grown hafter events
  obtain ⟨row', hrow', rfl⟩ := hgrown.files.mem hrow
  have hserves := hconsistent.servesFile huuid hrow'
  rwa [hholds.guid, hholds.data, hdata] at hserves

/-! ## An upload -/

/-- The answer to the upload. -/
def uploadedByte : Serving := left (process durableEnv (applicationRoutes durableEnv) uploadByte loggedIn)

theorem uploaded_byte_served :
    ∃ response f, uploadedByte.written = [response] ∧ (fileAnswer f).dump = .ok response.body ∧
      ∀ events, ServesFile durableEnv f.guid (text "x") (serverRun durableEnv uploadedByte.handling.world events) := by
  have hreq : Authenticated durableEnv uploadByte oneByte (fileHandler durableEnv) := {
    request := by decide
    route := rfl
    auth := rfl }
  have howner : tokenOwner (base64Encode (repeated 0)) loggedIn =
      some ({ id := 1, userId := 1, token := base64Encode (repeated 0), created := 0, expires := 3600 },
        { id := 1, email := text "a@b", hash := repeated 1, nacl := repeated 0 }) := by
    decide +kernel
  have htoken : uploadByte.find (text "session-token") = some (base64Encode (repeated 0)) := by decide +kernel
  have hsound : (atGate durableEnv (fileHandler durableEnv) loggedIn).handling.world.Sound 2 := nofun
  have hgate := (gate_passed_iff (s := atGate durableEnv (fileHandler durableEnv) loggedIn)).mpr
    ⟨_, _, _, htoken, hsound, howner, by decide, rfl⟩
  have huuid : ∀ j k, durableEnv.uuid j = durableEnv.uuid k → j = k := by
    intro j k h
    have hlength := congrArg List.length (show List.replicate j (97 : UInt8) = List.replicate k 97 from h)
    rwa [List.length_replicate, List.length_replicate] at hlength
  have hone : uploadedByte.written.map (·.status) = [200] := by decide +kernel
  obtain ⟨response, hwritten, hstatus⟩ := List.map_eq_singleton_iff.mp hone
  have hanswer : response ∈ uploadedByte.written := by
    rw [hwritten]
    exact List.mem_singleton_self response
  rw [uploadedByte] at hanswer
  obtain ⟨f, hbody, hserved⟩ := uploaded_file_served huuid loggedIn_consistent loggedIn_keyed
    ⟨text "n", text "x", 44100, rfl, rfl, rfl⟩ hreq hgate (by exact nofun) hanswer hstatus
  refine ⟨response, f, hwritten, hbody, ?_⟩
  rw [uploadedByte]
  exact hserved

end AudioToolApi
