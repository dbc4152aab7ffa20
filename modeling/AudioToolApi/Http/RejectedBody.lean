/-
A login whose body is no JSON, with the parser as it is. Its error quotes the
body, and goes into a JSON answer itself: a body of ASCII is always answered
(500), and one that begins with another character never is.
-/
import AudioToolApi.Http.IssuedSessions
import AudioToolApi.Utilities.JsonErrors

namespace AudioToolApi

open Effects

variable {env : Env} {strtod : Bytes → Option Double}

/-- `authenticate` and `create` are not reached. -/
theorem auth_rejected {r : HttpRequest} {h : Handling} {what : Bytes} (hverb : r.verb = .post ∨ r.verb = .put)
    (hnull : h.json = .null) (hsent : sentJson env r = .error what) :
    ∃ h', (authHandler env).run r h = .error (.std what) h' := by
  obtain ⟨h', -, hparse⟩ := @parseJson_read env r h hnull
  rw [hsent] at hparse
  refine ⟨h', ?_⟩
  have hmethod {method : HttpRequest → Handle Unit} (hm : (authHandler env).method r.verb = some method)
      (hthrow : method r h = .error (.std what) h') : (authHandler env).run r h = .error (.std what) h' := by
    have hsetup : (authHandler env).setup r h = .ok () h := rfl
    rw [Handler.run, bind_ok hsetup, hm]
    exact bind_error hthrow
  rcases hverb with hv | hv
  · exact hmethod (by rw [hv]; rfl) (bind_error hparse)
  · exact hmethod (by rw [hv]; rfl) (bind_error hparse)

/-- A rejected login is answered if and only if its error is UTF-8. -/
theorem rejected_answered {req : Request} {r : HttpRequest} {what : Bytes} (hparsed : httpRequest req = some r)
    (hpath : strippedPath env r.path = text "/auth") (hverb : r.verb = .post ∨ r.verb = .put)
    (hsent : sentJson env r = .error what) (world : World) :
    AnsweredOnce (process env (applicationRoutes env) req world) ↔ Utf8 what := by
  obtain ⟨h', hrun⟩ := auth_rejected (h := (authHandler env).construct env world) hverb rfl hsent
  rw [process, hparsed]
  simp only [findRoute_auth hpath]
  have hserve := handle_answers env (authHandler env) req r (s := { handling := (authHandler env).construct env world }) rfl
  rw [hrun] at hserve
  exact hserve

theorem sentJson_eq {req : Request} {r : HttpRequest} (henv : env.parse = Json.parse strtod)
    (hparsed : httpRequest req = some r) (hjson : (find (text "json") r.contentType).isSome = true) (hbody : req.body ≠ []) :
    sentJson env r = Json.parse strtod req.body := by
  obtain ⟨files, -, rfl⟩ := Option.map_eq_some_iff.mp hparsed
  rw [sentJson, henv, if_pos ⟨List.length_pos_iff.mpr hbody, hjson⟩]

/-- **A login whose body is no JSON**: it is answered if the body is ASCII. If
the body begins, after whitespace, with a byte that is not, other than that of
a byte order mark, it never is. -/
theorem rejectedLogin_answered (henv : env.parse = Json.parse strtod) {req : Request} {r : HttpRequest}
    (hparsed : httpRequest req = some r) (hpath : strippedPath env r.path = text "/auth")
    (hverb : r.verb = .post ∨ r.verb = .put) (hjson : (find (text "json") r.contentType).isSome = true) (world : World) :
    (∀ what, req.body ≠ [] → Json.parse strtod req.body = .error what → Ascii req.body →
      AnsweredOnce (process env (applicationRoutes env) req world)) ∧
    (∀ spaces c tail, req.body = spaces ++ c :: tail → (∀ b ∈ spaces, Lexer.isSpace b = true) → 128 ≤ c → c ≠ 0xEF →
      ¬ AnsweredOnce (process env (applicationRoutes env) req world)) := by
  refine ⟨fun what hbody hreject hascii => ?_, fun spaces c tail hbody hspaces hc hbom => ?_⟩
  · have hsent := sentJson_eq henv hparsed hjson hbody
    rw [hreject] at hsent
    obtain ⟨piece, hpiece, hquotes⟩ := quotes_of_parse hreject
    have hutf8 : Utf8 piece := utf8_of_ascii fun b hb => hascii b (hpiece.subset hb)
    exact (rejected_answered hparsed hpath hverb hsent world).mpr (hquotes.utf8.mpr hutf8)
  · obtain ⟨what, hreject, hutf8⟩ := parse_stray strtod tail hspaces hc hbom
    have hsent := sentJson_eq henv hparsed hjson (by simp [hbody])
    rw [hbody, hreject] at hsent
    exact fun h => hutf8 ((rejected_answered hparsed hpath hverb hsent world).mp h)

/-- `POST /auth` with the body `é`. -/
def accentLogin : Request where
  method := .post
  methodString := text "POST"
  target := text "/auth"
  fields := []
  body := text "é"
  method_ascii := post_ascii
  value_no_NUL := no_fields

def accentHttpRequest : HttpRequest where
  verb := .post
  path := text "/auth"
  urlParams := []
  contentType := text "application/json"
  files := []
  body := accentLogin.body

theorem accentLogin_parsed : httpRequest accentLogin = some accentHttpRequest := by
  decide

/-- The parser as it is. -/
def parsingEnv : Env := { plainEnv with parse := Json.parse fun _ => none }

theorem accentLogin_unanswered :
    ¬ AnsweredOnce (process parsingEnv (applicationRoutes parsingEnv) accentLogin {}) := by
  have hrejected := @rejectedLogin_answered parsingEnv _ rfl _ _ accentLogin_parsed rfl (.inl rfl) (by decide) {}
  exact hrejected.2 [] 0xC3 [0xA9] (by decide) (by simp) (by decide) (by decide)

end AudioToolApi
