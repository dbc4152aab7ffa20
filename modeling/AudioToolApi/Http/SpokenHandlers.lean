/-
The handlers on a request that sticks to the encoding: a target in ASCII, and
a JSON body that parses or is ASCII. What they answer with can be sent, and
what they throw can be told.
-/
import AudioToolApi.Http.Spoken
import AudioToolApi.Utilities.Base64Facts

namespace AudioToolApi

open Effects

/-! ## What is given -/

/-- What comes from outside, where it may end up in JSON: the values of
`UUID()` are UTF-8, what Google sends parses or is ASCII, and the statuses of
the handlers' exceptions are statuses. -/
structure Env.Spoken (env : Env) (strtod : Bytes → Option Double) : Prop where
  parse : env.parse = Json.parse strtod
  uuid : ∀ k, Utf8 (env.uuid k)
  tokenReply : ∀ form what, Json.parse strtod (env.tokenReply form) = .error what → Ascii (env.tokenReply form)
  peopleReply : ∀ token what, Json.parse strtod (env.peopleReply token) = .error what → Ascii (env.peopleReply token)
  badRequest : env.intToStatus 400 = 400
  forbidden : env.intToStatus 403 = 403

/-- The request as it is parsed: UTF-8 parameters, JSON that parses or is
ASCII, and files that `AP::process` is done with. -/
structure HttpRequest.Spoken (env : Env) (r : HttpRequest) : Prop where
  params : ∀ p ∈ r.urlParams, Utf8 p.2
  body : ∀ what, sentJson env r = .error what → Ascii r.body
  audio : ∀ content ∈ r.files, env.audio content ≠ .gone

structure Request.Spoken (env : Env) (req : Request) : Prop where
  target : Ascii req.target
  body : ∀ r what, httpRequest req = some r → sentJson env r = .error what → Ascii req.body
  audio : ∀ r, httpRequest req = some r → ∀ content ∈ r.files, env.audio content ≠ .gone

/-- The bytes of the values come from the target. -/
structure UrlState.Ascii (u : UrlState) : Prop where
  value : AudioToolApi.Ascii u.currentParamValue
  params : ∀ p ∈ u.urlParams, AudioToolApi.Ascii p.2

theorem UrlState.Ascii.step {u : UrlState} (h : u.Ascii) {c : UInt8} (hc : c < 128) : (u.step c).Ascii := by
  unfold UrlState.step
  split
  · exact ⟨h.value, h.params⟩
  · split
    · exact ⟨h.value, h.params⟩
    · split
      · exact ⟨ascii_nil, List.forall_mem_cons.mpr ⟨h.value, h.params⟩⟩
      · split
        · exact ⟨h.value.append (List.forall_mem_singleton.mpr hc), h.params⟩
        · exact ⟨h.value, h.params⟩

theorem UrlState.Ascii.foldl {target : Bytes} (htarget : AudioToolApi.Ascii target) :
    ∀ {u : UrlState}, u.Ascii → (target.foldl UrlState.step u).Ascii := by
  induction target with
  | nil => exact fun h => h
  | cons c target ih =>
    obtain ⟨hc, htarget⟩ := List.forall_mem_cons.mp htarget
    exact fun h => ih htarget (h.step hc)

theorem parseTarget_ascii {target : Bytes} (htarget : Ascii target) : ∀ p ∈ (parseTarget target).urlParams, Ascii p.2 := by
  have h : (target.foldl UrlState.step {}).Ascii := UrlState.Ascii.foldl htarget ⟨ascii_nil, by simp⟩
  unfold parseTarget UrlState.finish
  split
  · split
    · unfold Params.emplace
      split
      · exact h.params
      · exact List.forall_mem_cons.mpr ⟨h.value, h.params⟩
    · exact h.params
  · exact h.params

variable {env : Env} {strtod : Bytes → Option Double} {r : HttpRequest}

theorem Request.Spoken.parsed {req : Request} (h : req.Spoken env) (hparsed : httpRequest req = some r) :
    r.Spoken env := by
  have hrest : r.urlParams = (parseTarget req.target).urlParams ∧ r.body = req.body := by
    obtain ⟨files, -, rfl⟩ := Option.map_eq_some_iff.mp hparsed
    exact ⟨rfl, rfl⟩
  refine ⟨?_, ?_, h.audio r hparsed⟩
  · rw [hrest.1]
    exact fun p hp => (parseTarget_ascii h.target p hp).utf8
  · rw [hrest.2]
    exact fun what => h.body r what hparsed

theorem HttpRequest.Spoken.param (h : r.Spoken env) {name value : Bytes} (hvalue : r.urlParams.lookup name = some value) :
    Utf8 value := by
  obtain ⟨before, after, hsplit, -⟩ := List.lookup_eq_some_iff.mp hvalue
  exact h.params (name, value) (by simp [hsplit])

theorem HttpRequest.Spoken.paramOr (h : r.Spoken env) (name : Bytes) : Utf8 ((r.urlParams.lookup name).getD []) := by
  cases hvalue : r.urlParams.lookup name with
  | none => exact Lexer.utf8_nil
  | some value => exact h.param hvalue

/-! ## The handler -/

def Content.Spoken : Content → Prop
  | .json j => j.Utf8
  | .body _ => True

/-- All that a handler may answer with can be sent. -/
structure Handling.Spoken (h : Handling) : Prop where
  world : h.world.Spoken
  user : Utf8 h.user.emailAddress
  json : h.json.Utf8
  data : h.responseData.toJson.Utf8
  status : h.response.status ∈ [200, 302, 404]
  content : h.response.content.Spoken

theorem Handling.Spoken.sendable {h : Handling} (hh : h.Spoken) : Sendable h.response := by
  have hstatuses : ∀ status ∈ [(200 : Int), 302, 404], 0 ≤ status ∧ status ≤ 999 ∧ bodiless status.toNat = false := by decide
  obtain ⟨hlow, hhigh, hbody⟩ := hstatuses _ hh.status
  have hcontent := hh.content
  refine ⟨⟨hlow, hhigh⟩, ?_⟩
  cases hc : h.response.content with
  | json j =>
    rw [hc] at hcontent
    exact ⟨hcontent, hbody⟩
  | body s => simp [hbody]

/-- What is done for a handler whose answers can be sent. -/
abbrev Handled (env : Env) {α : Type} (x : Handle α) (Q : α → Prop) : Prop := Says Handling.Spoken (Exn.Told env) x Q

section

variable {α : Type} {Q : α → Prop}

theorem member_spoken {p : Handling → α} (hp : ∀ h, h.Spoken → Q (p h)) : Handled env (member p) Q :=
  fun h hh => ⟨hh, hp h hh⟩

theorem inWorld_spoken {x : Act α} (hx : Says World.Spoken (Exn.Told env) x Q) : Handled env (inWorld x) Q := by
  intro h hh
  have hends := hx h.world hh.world
  rw [inWorld]
  cases hr : x h.world with
  | ok a w =>
    rw [hr] at hends
    exact ⟨{ hh with world := hends.1 }, hends.2⟩
  | error e w =>
    rw [hr] at hends
    exact ⟨{ hh with world := hends.1 }, hends.2⟩

theorem orThrow_spoken {σ : Type} {I : σ → Prop} {x : Except Bytes α} (hx : Speaks x Q) :
    Says I (Exn.Told env) (orThrow x) Q := by
  cases x with
  | ok a => exact Says.pure hx
  | error what => exact Says.throw hx

theorem catchRuntime_spoken {σ : Type} {I : σ → Prop} {x : EStateM Exn σ α} {f : Bytes → EStateM Exn σ α}
    (hx : Says I (Exn.Told env) x Q) (hf : ∀ what, Says I (Exn.Told env) (f what) Q) :
    Says I (Exn.Told env) (catchRuntime x f) Q := by
  intro s hs
  have hends := hx s hs
  rw [catchRuntime]
  cases hr : x s with
  | ok a t =>
    rw [hr] at hends
    exact hends
  | error e t =>
    rw [hr] at hends
    cases e with
    | http code what | runtime what => exact hf what t hends.1
    | std what | other | gone => exact hends

end

theorem setContent_spoken {c : Content} (hc : c.Spoken) : Handled env (setContent c) fun _ => True :=
  Says.modify fun _ hh => { hh with content := hc }

theorem setStatus_spoken {status : Int} (h : status ∈ [200, 302, 404]) : Handled env (setStatus status) fun _ => True :=
  Says.modify fun _ hh => { hh with status := h }

theorem emplaceHeader_spoken (name value : Bytes) : Handled env (emplaceHeader name value) fun _ => True :=
  Says.modify fun _ hh => { hh with }

theorem setResponseData_spoken {d : ResponseData} (hd : d.toJson.Utf8) : Handled env (setResponseData d) fun _ => True :=
  Says.modify fun _ hh => { hh with data := hd }

theorem setUser_spoken {user : User} (hu : Utf8 user.emailAddress) :
    Handled env (modify fun h => { h with user } : Handle Unit) fun _ => True :=
  Says.modify fun _ hh => { hh with user := hu }

theorem user_spoken : Handled env (member (·.user)) fun u => Utf8 u.emailAddress := member_spoken fun _ hh => hh.user

theorem json_spoken : Handled env (member (·.json)) Json.Utf8 := member_spoken fun _ hh => hh.json

theorem notFound_spoken : Handled env notFound fun _ => True :=
  (setContent_spoken (c := .body _) trivial).bind fun _ _ => setStatus_spoken (by decide)

theorem finishModel_spoken : Handled env finishModel fun _ => True := by
  refine Says.bind (Q := fun d : ResponseData => d.toJson.Utf8) (member_spoken fun _ hh => hh.data) fun d hd => ?_
  refine Says.bind (Q := fun _ => True) (member_spoken fun _ _ => trivial) fun status _ => setContent_spoken ?_
  exact Json.utf8_jsonify (by simp [utf8_text, hd])

theorem require_spoken (henv : env.Spoken strtod) (check : Bool) (what : String) :
    Handled env (require check (text what)) fun _ => True := by
  unfold require
  split
  · exact Says.pure trivial
  · refine Says.throw ⟨utf8_text what, ?_⟩
    rw [henv.badRequest]
    rfl

theorem parseJson_spoken (henv : env.Spoken strtod) (hr : r.Spoken env) : Handled env (parseJson env r) Json.Utf8 := by
  have hparse : Speaks (Json.parse strtod r.body) Json.Utf8 ∨
      ¬ (r.body.length > 0 ∧ (find (text "json") r.contentType).isSome) := by
    by_cases hread : r.body.length > 0 ∧ (find (text "json") r.contentType).isSome
    · refine .inl (parse_speaks fun what hreject => hr.body what ?_)
      rw [sentJson, if_pos hread, henv.parse]
      exact hreject
    · exact .inr hread
  rw [parseJson]
  split
  · rename_i hread
    rcases hparse with hparse | hparse
    · rw [henv.parse]
      exact (orThrow_spoken hparse).bind fun j hj => (Says.modify fun _ hh => { hh with json := hj }).bind fun _ _ => json_spoken
    · exact absurd hread hparse
  · exact json_spoken

theorem jsonString_spoken {j : Json} (hj : j.Utf8) (key : Bytes) : Handled env (jsonString j key) Utf8 :=
  (orThrow_spoken (at_speaks hj key)).bind fun _ hvalue => orThrow_spoken (toString_speaks hvalue)

theorem jsonInt_spoken {j : Json} (hj : j.Utf8) (key : Bytes) : Handled env (jsonInt j key) fun _ => True :=
  (orThrow_spoken (at_speaks hj key)).bind fun _ _ => orThrow_spoken (toInt_speaks _)

/-! ## The routes -/

theorem base64Encode_utf8 (bytes : Bytes) : Utf8 (base64Encode bytes) := by
  have halphabet : Ascii base64Chars := by decide
  refine Ascii.utf8 fun c hc => ?_
  have hchar := base64Encode_isEncoded bytes c hc
  simp only [isEncoded, Bool.or_eq_true, List.contains_iff_mem, decide_eq_true_eq] at hchar
  rcases hchar with hchar | rfl
  · exact halphabet c hchar
  · decide

/-- A session for the user, and what follows. -/
theorem ownSession_spoken {u : User} (hu : Utf8 u.emailAddress) {k : User → Handle Unit}
    (hk : ∀ v : User, Utf8 v.emailAddress → Handled env (k v) fun _ => True) :
    Handled env (do
      let user ← inWorld (u.createSession env)
      modify fun h => { h with user }
      k user) fun _ => True :=
  (inWorld_spoken (createSession_spoken hu)).bind fun v hv => (setUser_spoken hv).bind fun _ _ => hk v hv

theorem answerSession_spoken : Handled env answerSession fun _ => True :=
  user_spoken.bind fun _ hu => (emplaceHeader_spoken _ _).bind fun _ _ => setContent_spoken (c := .json _) (userJson_utf8 hu)

theorem processAudio_spoken {content : Bytes} (haudio : env.audio content ≠ .gone) :
    Handled env (processAudio env content) fun _ => True := by
  unfold processAudio
  split
  · exact Says.pure trivial
  · exact Says.throw trivial
  · rename_i hgone
    exact absurd hgone haudio

theorem fileListGet_spoken : Handled env fileListGet fun _ => True := by
  refine Says.bind (Q := fun _ => True) (member_spoken fun _ _ => trivial) fun userId _ => ?_
  refine (inWorld_spoken (getFilesForUser_spoken userId)).bind fun fs hfs => setResponseData_spoken (d := .files fs) ?_
  exact (Json.utf8_array _).mpr (List.forall_mem_map.mpr fun f hf => (hfs f hf).toJson)

theorem projectListGet_spoken : Handled env projectListGet fun _ => True := by
  refine Says.bind (Q := fun _ => True) (member_spoken fun _ _ => trivial) fun userId _ => ?_
  refine (inWorld_spoken (getProjectsForUser_spoken userId false)).bind fun ps hps => setResponseData_spoken (d := .projects ps) ?_
  exact (Json.utf8_array _).mpr (List.forall_mem_map.mpr fun p hp => (hps p hp).toJson)

/-- The values that Google lists are UTF-8. -/
theorem Json.Utf8.items {j : Json} (h : j.Utf8) : ∀ j' ∈ j.items, j'.Utf8 := by
  cases j with
  | array items => exact (Json.utf8_array items).mp h
  | object members =>
    refine List.forall_mem_map.mpr fun m hm => ?_
    exact ((Json.utf8_object members).mp h m hm).2
  | null => simp [Json.items]
  | bool | int | float | string => exact List.forall_mem_singleton.mpr h

section

variable (henv : env.Spoken strtod)

include henv

theorem getToken_spoken (code : Bytes) : Says World.Spoken (Exn.Told env) (getToken env code) fun _ => True := by
  have hreply := parse_speaks fun what => henv.tokenReply (tokenForm env code) what
  rw [← henv.parse] at hreply
  refine (orThrow_spoken hreply).bind fun j hj => ?_
  split
  · rename_i token htoken
    exact (orThrow_spoken (toString_speaks (hj.find htoken))).post fun _ _ => trivial
  · exact Says.throw (utf8_text _)

theorem getEmail_spoken (token : Bytes) : Says World.Spoken (Exn.Told env) (getEmail env token) Utf8 := by
  have hreply := parse_speaks fun what => henv.peopleReply token what
  rw [← henv.parse] at hreply
  refine (orThrow_spoken hreply).bind fun people hpeople => ?_
  split
  · rename_i addresses haddresses
    split
    · rename_i value hvalue
      obtain ⟨el, hel, hfind⟩ := List.exists_of_findSome?_eq_some hvalue
      exact orThrow_spoken (toString_speaks (((hpeople.find haddresses).items el hel).find hfind))
    · exact Says.throw (utf8_text _)
  · split
    · rename_i error herror
      obtain ⟨body, hbody⟩ := (dump_ok_iff _).mpr (hpeople.find herror)
      have hdump : Speaks error.dump fun _ => True := by
        rw [hbody]
        trivial
      exact (orThrow_spoken hdump).bind fun _ _ => Says.throw (utf8_text _)
    · exact Says.throw (utf8_text _)

theorem oauthLogin_spoken (code : Bytes) : Handled env (oauthLogin env code) fun _ => True := by
  refine (inWorld_spoken (getToken_spoken henv code)).bind fun token _ => ?_
  refine (inWorld_spoken (getEmail_spoken henv token)).bind fun email hemail => user_spoken.bind fun u _ => ?_
  refine (inWorld_spoken (fillByEmail_spoken u hemail)).bind fun v hv => (setUser_spoken hv).bind fun _ _ => ?_
  exact ownSession_spoken hv fun _ _ => emplaceHeader_spoken _ _

theorem authGet_spoken (r : HttpRequest) : Handled env (authGet env r) fun _ => True := by
  have hbad : Handled env badAuth fun _ => True := emplaceHeader_spoken _ _
  refine (setStatus_spoken (by decide)).bind fun _ _ => ?_
  split
  · exact hbad
  · split
    · exact catchRuntime_spoken (oauthLogin_spoken henv _) fun _ => hbad
    · exact hbad

theorem fileGet_spoken : Handled env (fileGet env) fun _ => True := by
  refine json_spoken.bind fun j hj => (require_spoken henv _ _).bind fun _ _ => (jsonString_spoken hj _).bind fun guid _ => ?_
  refine (inWorld_spoken (fileFillByGuid_spoken Lexer.utf8_nil guid false)).bind fun f hf => ?_
  exact setResponseData_spoken (d := .file f) hf.toJson

theorem fileDataGet_spoken (r : HttpRequest) : Handled env (fileDataGet env r) fun _ => True := by
  refine (require_spoken henv _ _).bind fun _ _ => ?_
  refine (inWorld_spoken (fileFillByGuid_spoken Lexer.utf8_nil _ true)).bind fun f _ => ?_
  exact (setContent_spoken (c := .body f.data) trivial).bind fun _ _ => Says.modify fun _ hh => { hh with }

theorem projectGet_spoken (r : HttpRequest) : Handled env (projectGet env r) fun _ => True := by
  refine (require_spoken henv _ _).bind fun _ _ => (inWorld_spoken (projectFillByGuid_spoken _ _)).bind fun p hp => ?_
  exact setResponseData_spoken (d := .project p) hp.toJson

theorem projectPost_spoken : Handled env (projectPost env) fun _ => True := by
  refine json_spoken.bind fun j hj => (require_spoken henv _ _).bind fun _ _ => (require_spoken henv _ _).bind fun _ _ => ?_
  refine (jsonString_spoken hj _).bind fun guid _ => (inWorld_spoken (projectFillByGuid_spoken _ guid)).bind fun p hp => ?_
  refine (jsonString_spoken hj _).bind fun name hname => (jsonString_spoken hj _).bind fun projectData hdata => ?_
  have hproject : Project.Spoken { p with name, projectData } := ⟨hp.1, hname, hdata⟩
  refine (inWorld_spoken (projectUpdate_spoken hproject)).bind fun _ _ => ?_
  exact setResponseData_spoken (d := .project _) hproject.toJson

theorem projectPut_spoken : Handled env (projectPut env) fun _ => True := by
  refine json_spoken.bind fun j hj => (require_spoken henv _ _).bind fun _ _ => (require_spoken henv _ _).bind fun _ _ => ?_
  have hdata : Handled env (putProjectData j) Utf8 := by
    unfold putProjectData
    split
    · exact jsonString_spoken hj _
    · exact Says.pure (utf8_text _)
  refine (jsonInt_spoken hj _).bind fun creatorId _ => hdata.bind fun projectData hdata => ?_
  refine (jsonString_spoken hj _).bind fun name hname => ?_
  refine (inWorld_spoken (projectCreate_spoken henv.uuid ⟨hname, hdata⟩)).bind fun p hp => ?_
  exact setResponseData_spoken (d := .project p) hp.toJson

section

variable (hr : r.Spoken env)

include hr

theorem authPost_spoken : Handled env (authPost env r) fun _ => True := by
  refine (parseJson_spoken henv hr).bind fun j hj => ?_
  refine (jsonString_spoken hj _).bind fun email _ => (jsonString_spoken hj _).bind fun pass _ => ?_
  refine user_spoken.bind fun u hu => (inWorld_spoken (authenticate_spoken hu email pass)).bind fun v hv => ?_
  obtain ⟨didAuthenticate, user⟩ := v
  refine (setUser_spoken hv).bind fun _ _ => ?_
  split
  · exact ownSession_spoken hv fun _ _ => answerSession_spoken
  · refine Says.throw ⟨utf8_text _, ?_⟩
    rw [henv.forbidden]
    rfl

theorem authPut_spoken : Handled env (authPut env r) fun _ => True := by
  refine (parseJson_spoken henv hr).bind fun j hj => ?_
  refine (jsonString_spoken hj _).bind fun email hemail => (jsonString_spoken hj _).bind fun pass _ => ?_
  refine user_spoken.bind fun u hu => (inWorld_spoken (userCreate_spoken hu hemail pass)).bind fun v hv => ?_
  exact (setUser_spoken hv).bind fun _ _ => ownSession_spoken hv fun _ _ => answerSession_spoken

theorem filePost_spoken : Handled env (filePost env r) fun _ => True := by
  refine (require_spoken henv _ _).bind fun _ _ => ?_
  have haudio := hr.audio
  cases hfiles : r.files with
  | nil =>
    refine Says.throw ⟨utf8_text _, ?_⟩
    rw [henv.badRequest]
    rfl
  | cons content files =>
    rw [hfiles] at haudio
    refine (processAudio_spoken (haudio content (by simp))).bind fun out _ => ?_
    refine Says.bind (Q := fun _ => True) (member_spoken fun _ _ => trivial) fun userId _ => ?_
    have hname := hr.paramOr (text "name")
    refine Says.bind (Q := File.Spoken) (catchRuntime_spoken (inWorld_spoken (fileCreate_spoken henv.uuid hname)) fun _ => ?_)
      fun f hf => setResponseData_spoken (d := .file f) hf.toJson
    exact Says.pure ⟨Lexer.utf8_nil, hname⟩

end

end

/-! ## Runs of the handlers -/

/-- What the handler is constructed with and what its methods do. -/
structure Handler.Spoken (env : Env) (handler : Handler) (r : HttpRequest) : Prop where
  data : handler.responseData.toJson.Utf8
  run : Handled env (handler.run r) fun _ => True

theorem run_spoken {handler : Handler} (hsetup : Handled env (handler.setup r) fun _ => True)
    (hget : Handled env (handler.get r) fun _ => True) (hpost : Handled env (handler.post r) fun _ => True)
    (hput : Handled env (handler.put r) fun _ => True)
    (hrest : handler.head r = notFound ∧ handler.options r = notFound ∧ handler.delete_ r = notFound)
    (hfinish : Handled env (handler.finish r) fun _ => True) : Handled env (handler.run r) fun _ => True := by
  have hmethod {method : HttpRequest → Handle Unit} (hm : Handled env (method r) fun _ => True) :
      Handled env (do method r; handler.finish r; return true) fun _ => True :=
    hm.bind fun _ _ => hfinish.bind fun _ _ => Says.pure trivial
  refine hsetup.bind fun _ _ => ?_
  cases r.verb with
  | get => exact hmethod hget
  | post => exact hmethod hpost
  | put => exact hmethod hput
  | head => exact hmethod (hrest.1 ▸ notFound_spoken)
  | options => exact hmethod (hrest.2.1 ▸ notFound_spoken)
  | delete_ => exact hmethod (hrest.2.2 ▸ notFound_spoken)
  | other => exact Says.pure trivial

/-- A handler of a model reads the JSON first, and answers in JSON. -/
theorem modelRun_spoken (henv : env.Spoken strtod) (hr : r.Spoken env) {handler : Handler}
    (hsetup : handler.setup = fun r => discard (parseJson env r)) (hfinish : handler.finish = fun _ => finishModel)
    (hget : Handled env (handler.get r) fun _ => True) (hpost : Handled env (handler.post r) fun _ => True)
    (hput : Handled env (handler.put r) fun _ => True)
    (hrest : handler.head r = notFound ∧ handler.options r = notFound ∧ handler.delete_ r = notFound) :
    Handled env (handler.run r) fun _ => True := by
  refine run_spoken ?_ hget hpost hput hrest ?_
  · rw [hsetup]
    exact (parseJson_spoken henv hr).bind fun _ _ => Says.pure trivial
  · rw [hfinish]
    exact finishModel_spoken

theorem baseRun_spoken {handler : Handler} (hsetup : handler.setup = fun _ => pure ())
    (hfinish : handler.finish = fun _ => pure ())
    (hget : Handled env (handler.get r) fun _ => True) (hpost : Handled env (handler.post r) fun _ => True)
    (hput : Handled env (handler.put r) fun _ => True)
    (hrest : handler.head r = notFound ∧ handler.options r = notFound ∧ handler.delete_ r = notFound) :
    Handled env (handler.run r) fun _ => True := by
  refine run_spoken ?_ hget hpost hput hrest ?_
  · rw [hsetup]
    exact Says.pure trivial
  · rw [hfinish]
    exact Says.pure trivial

theorem testGet_spoken : Handled env ((testHandler env).get r) fun _ => True :=
  setContent_spoken (c := .json _) (Json.utf8_jsonify (by simp [utf8_text, base64Encode_utf8]))

theorem userGet_spoken : Handled env ((userHandler env).get r) fun _ => True :=
  user_spoken.bind fun u hu => setResponseData_spoken (d := .user u) (userJson_utf8 hu)

/-- **Every handler** that there is a route to. -/
theorem routes_say (henv : env.Spoken strtod) (hr : r.Spoken env) {handler : Handler}
    (hroute : findRoute env (applicationRoutes env) r.path = some handler) : handler.Spoken env r := by
  have hmissing : Handled env notFound fun _ => True := notFound_spoken
  obtain ⟨before, after, hsplit, -⟩ := List.lookup_eq_some_iff.mp hroute
  have hmem : (strippedPath env r.path, handler) ∈ applicationRoutes env := by
    rw [hsplit]
    exact List.mem_append_right _ (.head _)
  simp only [applicationRoutes, List.mem_cons, Prod.mk.injEq, List.not_mem_nil, or_false] at hmem
  rcases hmem with ⟨-, rfl⟩ | ⟨-, rfl⟩ | ⟨-, rfl⟩ | ⟨-, rfl⟩ | ⟨-, rfl⟩ | ⟨-, rfl⟩ | ⟨-, rfl⟩ | ⟨-, rfl⟩ | ⟨-, rfl⟩
  · exact ⟨Json.utf8_null, baseRun_spoken rfl rfl hmissing hmissing hmissing ⟨rfl, rfl, rfl⟩⟩
  · exact ⟨Json.utf8_null, baseRun_spoken rfl rfl testGet_spoken hmissing hmissing ⟨rfl, rfl, rfl⟩⟩
  · exact ⟨Json.utf8_null, baseRun_spoken rfl rfl (authGet_spoken henv r) (authPost_spoken henv hr) (authPut_spoken henv hr)
      ⟨rfl, rfl, rfl⟩⟩
  · have hnew : Utf8 (User.new env).emailAddress := Lexer.utf8_nil
    exact ⟨userJson_utf8 hnew, modelRun_spoken henv hr rfl rfl userGet_spoken hmissing hmissing ⟨rfl, rfl, rfl⟩⟩
  · have hnew : (File.new env).Spoken := ⟨Lexer.utf8_nil, Lexer.utf8_nil⟩
    exact ⟨hnew.toJson, modelRun_spoken henv hr rfl rfl (fileGet_spoken henv) (filePost_spoken henv hr) hmissing ⟨rfl, rfl, rfl⟩⟩
  · exact ⟨Json.utf8_null, baseRun_spoken rfl rfl (fileDataGet_spoken henv r) hmissing hmissing ⟨rfl, rfl, rfl⟩⟩
  · exact ⟨(Json.utf8_array _).mpr (by simp), modelRun_spoken henv hr rfl rfl fileListGet_spoken hmissing hmissing ⟨rfl, rfl, rfl⟩⟩
  · have hnew : (Project.new env).Spoken := ⟨Lexer.utf8_nil, Lexer.utf8_nil, Lexer.utf8_nil⟩
    exact ⟨hnew.toJson, modelRun_spoken henv hr rfl rfl (projectGet_spoken henv r) (projectPost_spoken henv)
      (projectPut_spoken henv) ⟨rfl, rfl, rfl⟩⟩
  · exact ⟨(Json.utf8_array _).mpr (by simp), modelRun_spoken henv hr rfl rfl projectListGet_spoken hmissing hmissing
      ⟨rfl, rfl, rfl⟩⟩

end AudioToolApi
