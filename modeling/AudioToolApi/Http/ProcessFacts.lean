/-
Exactly one answer. `process` writes a response and returns unless one of the
texts it puts into a JSON body is not UTF-8, a response cannot be built for
its status, or a call never comes back: `build_response` is also called where
nothing catches what it throws. `answeredOnce_iff` says when.
-/
import AudioToolApi.Http.GateFacts
import AudioToolApi.Http.RequestFacts
import AudioToolApi.Utilities.JsonFacts

namespace AudioToolApi

open Effects

/-- `write()` was called once, and `process` returned. -/
def AnsweredOnce (result : EStateM.Result Exn Serving Unit) : Prop :=
  ∃ s response, result = .ok () s ∧ s.written = [response]

/-! ## `build_response` -/

theorem errorJson_eq (status : Nat) (message : Bytes) :
    errorJson status message = .object [(text "message", .string message), (text "status", .int status)] := by
  have hne : text "status" ≠ text "message" := by decide
  have hlt : ¬ text "status" < text "message" := by decide
  simp [errorJson, jsonify, insertMember, hne, hlt]

theorem errorJson_utf8 (status : Nat) (message : Bytes) : (errorJson status message).Utf8 ↔ Utf8 message := by
  have h1 : Utf8 (text "message") := by decide
  have h2 : Utf8 (text "status") := by decide
  simp [errorJson_eq, Json.Utf8, Json.texts, textsOfMembers, h1, h2]

theorem answeredOnce_error {e : Exn} {s : Serving} : ¬ AnsweredOnce (.error e s) := by
  intro h
  obtain ⟨_, _, ⟨⟩, -⟩ := h

/-- A body that the status allows is written. -/
theorem preparePayload_ok {status : Nat} {body : Bytes} {r : Response} {s : Serving}
    (h : bodiless status = true → body = []) :
    (do preparePayload status body; write r : Serve Unit) s = .ok () { s with written := s.written ++ [r] } := by
  have hn : ¬ (bodiless status ∧ body.length > 0) := by
    intro h
    obtain ⟨hb, hl⟩ := h
    rw [h hb] at hl
    cases hl
  rw [preparePayload, if_neg hn]
  rfl

theorem preparePayload_fails {status : Nat} {body : Bytes} {r : Response} {s : Serving}
    (h : ¬ (bodiless status = true → body = [])) :
    (do preparePayload status body; write r : Serve Unit) s = .error (.std (text "invalid response body")) s := by
  obtain ⟨hb, hne⟩ := Classical.not_imp.mp h
  rw [preparePayload, if_pos ⟨hb, List.length_pos_iff.mpr hne⟩]
  rfl

/-- An error of this status and with this text can be sent. -/
def Tellable (status : Nat) (message : Bytes) : Prop := Utf8 message ∧ bodiless status = false

theorem buildError_ok {status : Nat} {message : Bytes} (h : Tellable status message) (s : Serving) :
    ∃ r, r.status = status ∧ buildError status message s = .ok () { s with written := s.written ++ [r] } := by
  obtain ⟨body, hbody⟩ := (dump_ok_iff _).mpr ((errorJson_utf8 status message).mpr h.1)
  rw [buildError, hbody]
  exact ⟨_, rfl, preparePayload_ok fun hb => absurd (hb.symm.trans h.2) (by decide)⟩

theorem buildError_fails {status : Nat} {message : Bytes} (h : ¬ Tellable status message) (s : Serving) :
    ∃ what, buildError status message s = .error (.std what) s := by
  rw [buildError]
  cases hd : (errorJson status message).dump with
  | error what => exact ⟨what, rfl⟩
  | ok body =>
    have hu : Utf8 message := (errorJson_utf8 status message).mp ((dump_ok_iff _).mp ⟨body, hd⟩)
    refine ⟨_, preparePayload_fails fun hb => ?_⟩
    cases hs : bodiless status with
    | true => exact dump_ne_nil hd (hb hs)
    | false => exact h ⟨hu, hs⟩

/-- The response of a handler can be sent: it has a status, what it has to say
is UTF-8 if it is JSON, and it says nothing where the status allows no
body. -/
def Sendable (r : HTTPResponse) : Prop :=
  (0 ≤ r.status ∧ r.status ≤ 999) ∧
    match r.content with
    | .json j => j.Utf8 ∧ bodiless r.status.toNat = false
    | .body s => bodiless r.status.toNat = true → s = []

/-- The response of a handler is written as it is, or the exception is
`build_response`'s. -/
theorem buildResponse_cases (r : HTTPResponse) (s : Serving) :
    (Sendable r ∧ ∃ response, response.status = r.status.toNat ∧ response.headers = r.headers ∧
      r.getContent = .ok response.body ∧ buildResponse r s = .ok () { s with written := s.written ++ [response] }) ∨
    (¬ Sendable r ∧ ∃ what, buildResponse r s = .error (.std what) s) := by
  by_cases hr : 0 ≤ r.status ∧ r.status ≤ 999
  · have hstart : buildResponse r s = (orThrow r.getContent >>= fun body => do
        preparePayload r.status.toNat body
        write { status := r.status.toNat, contentType := r.contentType, headers := r.headers, body }) s := by
      rw [buildResponse, checkStatus, if_pos hr]
      rfl
    have hsend : Sendable r ↔ ∃ body, r.getContent = .ok body ∧ (bodiless r.status.toNat = true → body = []) := by
      rw [Sendable, and_iff_right hr, HTTPResponse.getContent]
      cases r.content with
      | body b => simp
      | json j =>
        simp only [← dump_ok_iff]
        constructor
        · intro ⟨⟨body, hbody⟩, hb⟩
          exact ⟨body, hbody, by simp [hb]⟩
        · intro ⟨body, hbody, hb⟩
          exact ⟨⟨body, hbody⟩, Bool.eq_false_iff.mpr fun h => dump_ne_nil hbody (hb h)⟩
    rw [hstart, hsend]
    cases hc : r.getContent with
    | error what => exact .inr ⟨by simp, what, rfl⟩
    | ok body =>
      have hok : (orThrow (.ok body) : Serve Bytes) s = .ok body s := rfl
      rw [bind_ok hok]
      by_cases hb : bodiless r.status.toNat = true → body = []
      · exact .inl ⟨⟨body, rfl, hb⟩, _, rfl, rfl, rfl, preparePayload_ok hb⟩
      · refine .inr ⟨?_, _, preparePayload_fails hb⟩
        intro ⟨body', hbody', hb'⟩
        cases hbody'
        exact hb hb'
  · refine .inr ⟨fun h => hr h.1, text "invalid status-code", ?_⟩
    rw [buildResponse, checkStatus, if_neg hr]
    rfl

theorem buildResponse_answers (r : HTTPResponse) {s : Serving} (hs : s.written = []) :
    AnsweredOnce (buildResponse r s) ↔ Sendable r := by
  rcases buildResponse_cases r s with ⟨hsend, response, -, -, -, hok⟩ | ⟨hno, what, herror⟩
  · refine iff_of_true ⟨_, response, hok, ?_⟩ hsend
    show s.written ++ [response] = [response]
    rw [hs, List.nil_append]
  · rw [herror]
    exact iff_of_false answeredOnce_error hno

/-! ## The handler -/

/-- How a handler may end for its request to be answered. -/
def EndsWell (env : Env) : EStateM.Result Exn Handling Bool → Prop
  | .ok true h => Sendable h.response
  | .ok false _ => True
  | .error (.http code what) _ => Tellable (env.intToStatus code) what
  | .error (.runtime what) _ | .error (.std what) _ => Utf8 what
  | .error .other _ => True
  | .error .gone _ => False

theorem tellable_append {status : Nat} {start what : Bytes} (hb : bodiless status = false) (hs : Utf8 start) :
    Tellable status (start ++ what) ↔ Utf8 what := by
  rw [Tellable, utf8_append hs, and_iff_left hb]

/-- An error response, and nothing after it. -/
theorem answeredOnce_buildError {status : Nat} {message : Bytes} {α : Type} {a : α} {f : α → Serve Unit} {s : Serving}
    (hs : s.written = []) (hf : ∀ t, f a t = .ok () t) :
    AnsweredOnce (((do buildError status message; return a : Serve α) >>= f) s) ↔ Tellable status message := by
  rw [bind_assoc]
  by_cases h : Tellable status message
  · obtain ⟨r, -, hr⟩ := buildError_ok h s
    rw [bind_ok hr, pure_bind, hf, hs]
    exact iff_of_true ⟨_, r, rfl, rfl⟩ h
  · obtain ⟨what, hw⟩ := buildError_fails h s
    rw [bind_error hw]
    exact iff_of_false answeredOnce_error h

/-- A handler of a model, once it has read its request. -/
theorem modelRun_eq {env : Env} {handler : Handler} {r : HttpRequest} {h h' : Handling}
    (hsetup : handler.setup = fun r => discard (parseJson env r)) (hfinish : handler.finish = fun _ => finishModel)
    {method : HttpRequest → Handle Unit} (hm : handler.method r.verb = some method) {j : Json}
    (hparse : parseJson env r h = .ok j h') :
    handler.run r h = (do method r; finishModel; return true) h' := by
  have hread : handler.setup r h = .ok () h' := by
    rw [hsetup]
    exact bind_ok hparse
  rw [Handler.run, bind_ok hread, hm, hfinish]

theorem handle_returned {env : Env} {handler : Handler} {req : Request} {r : HttpRequest} {s : Serving} {h : Handling}
    (hrun : handler.run r s.handling = .ok true h) :
    handle env handler req r s = buildResponse h.response { s with handling := h } := by
  have hin : inHandler (handler.run r) s = .ok true { s with handling := h } := by rw [inHandler, hrun]
  have hok : runHandler handler req r s = .ok true { s with handling := h } := by
    rw [runHandler, bind_ok hin]
    rfl
  rw [handle, bind_ok (tryCatch_ok hok)]
  rfl

theorem handle_thrown {env : Env} {handler : Handler} {req : Request} {r : HttpRequest} {s : Serving} {h : Handling}
    {e : Exn} (hrun : handler.run r s.handling = .error e h) :
    handle env handler req r s = (answerException env e >>= fun returned => do
      if returned then buildResponse (← get).handling.response) { s with handling := h } := by
  have hin : inHandler (handler.run r) s = .error e { s with handling := h } := by rw [inHandler, hrun]
  have herror : runHandler handler req r s = .error e { s with handling := h } := by
    rw [runHandler, bind_error hin]
  rw [handle, tryCatch_bind_error herror]

theorem handle_answers (env : Env) (handler : Handler) (req : Request) (r : HttpRequest) {s : Serving}
    (hs : s.written = []) :
    AnsweredOnce (handle env handler req r s) ↔ EndsWell env (handler.run r s.handling) := by
  cases hrun : handler.run r s.handling with
  | ok known h =>
    cases known with
    | true =>
      rw [handle_returned hrun]
      exact buildResponse_answers h.response hs
    | false =>
      have hin : inHandler (handler.run r) s = .ok false { s with handling := h } := by rw [inHandler, hrun]
      have htold : Tellable 400 (text "Invalid request-method '" ++ req.methodString ++ text "'\r\n") :=
        ⟨Utf8.append (Utf8.append (by decide) (utf8_of_ascii req.method_ascii)) (by decide), rfl⟩
      obtain ⟨response, -, hresponse⟩ := buildError_ok htold { s with handling := h }
      have hok : runHandler handler req r s =
          .ok false { handling := h, written := s.written ++ [response] } := by
        rw [runHandler, bind_ok hin]
        exact bind_ok hresponse
      rw [handle, bind_ok (tryCatch_ok hok), hs]
      exact iff_of_true ⟨_, response, rfl, rfl⟩ trivial
  | error e h =>
    have hsorry : Utf8 (text "There was an error processing your request – Please wait and try again: ") := by
      decide +kernel
    have hunhandled : Utf8 (text "Unhandled exception caught by the server – Please wait and try again") := by
      decide +kernel
    have h500 : bodiless 500 = false := rfl
    have hs' : ({ s with handling := h } : Serving).written = [] := hs
    rw [handle_thrown hrun]
    cases e with
    | http code what => exact answeredOnce_buildError hs' fun _ => rfl
    | runtime what | std what =>
      refine (answeredOnce_buildError hs' ?_).trans (tellable_append h500 hsorry)
      intro t
      rfl
    | other =>
      refine (answeredOnce_buildError hs' ?_).trans (iff_of_true ⟨hunhandled, h500⟩ trivial)
      intro t
      rfl
    | gone => exact iff_of_false answeredOnce_error id

/-! ## `process` -/

/-- A handler that is found can be answered for: the gate, where there is one,
ends and can tell why the look-up failed, and the handler ends well from
where the gate leaves it. -/
def AnswerableBy (env : Env) (handler : Handler) (req : Request) (r : HttpRequest) (h : Handling) : Prop :=
  if handler.requiresAuthentication then
    ∀ token, req.find (text "session-token") = some token →
      GateTold token h.world ∧ ∀ row owner, h.world.Sound 2 → tokenOwner token h.world = some (row, owner) →
        EndsWell env (handler.run r (admitted token row owner h))
  else EndsWell env (handler.run r h)

def Answerable (env : Env) (routes : List (Bytes × Handler)) (req : Request) (world : World) : Prop :=
  ∀ r, httpRequest req = some r → ∀ handler, findRoute env routes r.path = some handler →
    AnswerableBy env handler req r (handler.construct env world)

theorem serve_answers (env : Env) (handler : Handler) (req : Request) (r : HttpRequest) {s : Serving}
    (hs : s.written = []) :
    AnsweredOnce (serve env handler req r s) ↔ AnswerableBy env handler req r s.handling := by
  rw [serve, AnswerableBy]
  cases handler.requiresAuthentication with
  | false => exact handle_answers env handler req r hs
  | true =>
    have htext : Utf8 (text "Unauthorized") := by decide
    have hstart : Utf8 (text "Unauthorized: ") := by decide
    have h401 : bodiless 401 = false := rfl
    rw [if_pos rfl, if_pos rfl]
    cases ht : req.find (text "session-token") with
    | none =>
      rw [gate, ht]
      exact (answeredOnce_buildError hs fun _ => rfl).trans (iff_of_true ⟨htext, h401⟩ (by simp))
    | some token =>
      have hgate := gate_gate ht s
      simp only [Option.some.injEq, forall_eq']
      rw [bind_apply]
      generalize gate req s = result at hgate ⊢
      cases hgate with
      | @passed row owner hsound howner htold =>
        have hs' : ({ s with handling := admitted token row owner s.handling } : Serving).written = [] := hs
        refine (handle_answers env handler req r hs').trans ?_
        constructor
        · intro h
          refine ⟨htold, fun row' owner' _ ho => ?_⟩
          cases howner.symm.trans ho
          exact h
        · intro h
          exact h.2 row owner hsound howner
      | @refused what w hno htold =>
        have hs' : ({ s with handling := { s.handling with world := w } } : Serving).written = [] := hs
        have hiff : AnsweredOnce (((unauthorized (text "Unauthorized: " ++ what)) >>= fun passed =>
            if passed then handle env handler req r else pure ())
              { s with handling := { s.handling with world := w } }) ↔ Utf8 what := by
          refine (answeredOnce_buildError hs' ?_).trans (tellable_append h401 hstart)
          intro t
          rfl
        refine hiff.trans (htold.symm.trans ⟨fun h => ⟨h, fun row owner hsound ho => ?_⟩, fun h => h.1⟩)
        exact absurd ⟨hsound, by rw [ho]; rfl⟩ hno
      | hung htold =>
        exact iff_of_false answeredOnce_error fun h => htold h.1

/-- **One answer, exactly when** the texts that go into a JSON body are UTF-8,
the responses can be built, and nothing ends `process` on the way. -/
theorem answeredOnce_iff (env : Env) (routes : List (Bytes × Handler)) (req : Request) (world : World) :
    AnsweredOnce (process env routes req world) ↔ Answerable env routes req world := by
  obtain ⟨r, hr⟩ := Option.isSome_iff_exists.mp (httpRequest_isSome req)
  rw [process, hr, Answerable, hr]
  simp only [Option.some.injEq, forall_eq']
  cases hroute : findRoute env routes r.path with
  | none =>
    have htold : Tellable 404 (text "Route not found") := ⟨by decide, rfl⟩
    obtain ⟨response, -, h⟩ := buildError_ok htold { handling := baseHandler.construct env world }
    exact iff_of_true ⟨_, response, h, rfl⟩ (by simp)
  | some handler =>
    simp only [Option.some.injEq, forall_eq']
    exact serve_answers env handler req r rfl

/-- What `parse` says of a text that starts no value. -/
def invalidLiteral (body : Bytes) : Bytes :=
  text "[json.exception.parse_error.101] parse error at line 1, column 1: " ++
  text "syntax error while parsing value - invalid literal; last read: '" ++ body ++ text "'"

/-- An environment in which no text is JSON, and `parse` says so. -/
def strictEnv : Env := { plainEnv with parse := fun body => .error (invalidLiteral body) }

/-- `POST /auth` with a body of one byte, 0xFF. -/
def badLogin : Request where
  method := .post
  methodString := text "POST"
  target := text "/auth"
  fields := []
  body := [0xFF]
  method_ascii := post_ascii
  value_no_NUL := no_fields

/-- The body is quoted in the error, the error does not fit into JSON, and no
one catches that. -/
theorem badLogin_unanswered : ¬ AnsweredOnce (process strictEnv (applicationRoutes strictEnv) badLogin {}) := by
  have hthrown : (match process strictEnv (applicationRoutes strictEnv) badLogin {} with
    | .ok _ _ => false
    | .error e _ => e = .std (typeError "316" (text "invalid UTF-8 byte at index 204: 0xFF"))) = true := by
    decide +kernel
  intro h
  obtain ⟨s, response, h, -⟩ := h
  rw [h] at hthrown
  cases hthrown

end AudioToolApi
