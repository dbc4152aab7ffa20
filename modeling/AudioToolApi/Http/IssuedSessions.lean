/-
Logins, one after the other: the rows that they add to `sessions`, and the
responses that hand out a token. One `Env` is taken for all of them: what is
read of memory that was never set, and Google's replies to a given call, are
the same in each.
-/
import AudioToolApi.Http.AuthFacts
import AudioToolApi.Lib.Runs
import Mathlib.Data.List.Forall2

namespace AudioToolApi

open Effects Runs

/-! ## One login -/

/-- A `GET`, `POST` or `PUT` to `/auth`, when it is made, and what the driver
does with its statements. -/
structure Login (env : Env) where
  req : Request
  r : HttpRequest
  parsed : httpRequest req = some r
  path : strippedPath env r.path = text "/auth"
  verb : r.verb = .get ∨ r.verb = .post ∨ r.verb = .put
  now : Int
  faults : List (Option Fault)

/-- The world, over the connection of its handler. -/
def Login.sees {env : Env} (l : Login env) (w : World) : World :=
  { w with now := l.now, faults := l.faults, lastInsertId := 0 }

/-- What `process` leaves. -/
def Login.serve {env : Env} (l : Login env) (w : World) : Serving :=
  left (process env (applicationRoutes env) l.req (l.sees w))

/-- The responses that hand out a token. -/
def granting (rs : List Response) : List Response := rs.filter fun r => grants r.headers

/-! ## What is written -/

/-- At most one response is written, with these headers. -/
def Tells (headers : Params) (s t : Serving) : Prop :=
  t.handling = s.handling ∧ (t.written = s.written ∨ ∃ r, r.headers = headers ∧ t.written = s.written ++ [r])

theorem preparePayload_tells (status : Nat) (body : Bytes) (r : Response) (s : Serving) :
    Tells r.headers s (left ((do preparePayload status body; write r : Serve Unit) s)) := by
  rw [preparePayload]
  split
  · exact ⟨rfl, .inl rfl⟩
  · exact ⟨rfl, .inr ⟨r, rfl, rfl⟩⟩

theorem buildError_tells (status : Nat) (message : Bytes) (s : Serving) :
    Tells [] s (left (buildError status message s)) := by
  rw [buildError]
  cases (errorJson status message).dump with
  | error what => exact ⟨rfl, .inl rfl⟩
  | ok body => exact preparePayload_tells _ _ _ _

theorem buildResponse_tells (r : HTTPResponse) (s : Serving) : Tells r.headers s (left (buildResponse r s)) := by
  rcases buildResponse_cases r s with ⟨-, response, -, hheaders, -, hok⟩ | ⟨-, what, herror⟩
  · rw [hok]
    exact ⟨rfl, .inr ⟨response, hheaders, rfl⟩⟩
  · rw [herror]
    exact ⟨rfl, .inl rfl⟩

theorem buildResponse_sent {r : HTTPResponse} {s : Serving} (hs : s.written = []) (h : Sendable r) :
    ∃ response, response.headers = r.headers ∧ (left (buildResponse r s)).written = [response] := by
  rcases buildResponse_cases r s with ⟨-, response, -, hheaders, -, hok⟩ | ⟨hno, -⟩
  · rw [hok]
    exact ⟨response, hheaders, by rw [left, hs, List.nil_append]⟩
  · exact absurd h hno

/-- An exception is told of without a token. -/
theorem answerException_tells (env : Env) (e : Exn) (k : Bool → Serve Unit) (hk : k false = pure ()) (s : Serving) :
    Tells [] s (left ((answerException env e >>= k) s)) := by
  have htell (status : Nat) (message : Bytes) :
      Tells [] s (left (((do buildError status message; return false) >>= k) s)) := by
    have htells := buildError_tells status message s
    rw [bind_assoc, bind_apply]
    cases hb : buildError status message s with
    | error e t =>
      rw [hb] at htells
      exact htells
    | ok _ t =>
      rw [hb] at htells
      simp only [pure_bind, hk]
      exact htells
  cases e with
  | http code what | runtime what | std what | other => exact htell _ _
  | gone => exact ⟨rfl, .inl rfl⟩

/-! ## How a login ends -/

/-- What a login leaves of the sessions, and tells of them. -/
inductive Issued (kept : Prop) (sessions : List SessionRow) (t : Serving) : Prop
  | quiet : kept → t.handling.world.db.sessions = sessions → granting t.written = [] → Issued kept sessions t
  | one (row : SessionRow) (r : Response) : kept → t.handling.world.db.sessions = sessions ++ [row] →
      granting t.written = [r] → HandsOut r.headers row.token → Issued kept sessions t
  | more (rows : List SessionRow) : ¬ kept → t.handling.world.db.sessions = sessions ++ rows →
      (granting t.written).length < rows.length → Issued kept sessions t

theorem granting_tells {headers : Params} {s t : Serving} (hs : s.written = []) (h : Tells headers s t) :
    (granting t.written).length ≤ 1 ∧ (grants headers = false → granting t.written = []) := by
  obtain ⟨-, hnone | ⟨r, rfl, hone⟩⟩ := h
  · rw [hnone, hs]
    exact ⟨by simp [granting], fun _ => rfl⟩
  · rw [hone, hs]
    cases hg : grants r.headers <;> simp [granting, hg]

theorem handle_issued {env : Env} {handler : Handler} {req : Request} {r : HttpRequest} {method : Handle Unit}
    {kept : Prop} {s : Serving} (hs : s.written = [])
    (hrun : handler.run r = method >>= fun _ => pure true) (hend : Ended kept s.handling (method s.handling)) :
    Issued kept s.handling.world.db.sessions (left (handle env handler req r s)) := by
  cases hm : method s.handling with
  | error e h =>
    have herror : handler.run r s.handling = .error e h := by rw [hrun, bind_error hm]
    have htells : Tells [] { s with handling := h } (left (handle env handler req r s)) := by
      rw [handle_thrown herror]
      exact answerException_tells env e _ rfl _
    have hnone : granting (left (handle env handler req r s)).written = [] :=
      (granting_tells (by exact hs) htells).2 (by decide)
    rw [hm] at hend
    cases hend with
    | quiet hk hsame => exact .quiet hk (by rw [htells.1]; exact hsame) hnone
    | more rows hk hadd hne =>
      refine .more rows hk (by rw [htells.1]; exact hadd) ?_
      rw [hnone]
      exact List.length_pos_iff.mpr hne
  | ok _ h =>
    have hok : handler.run r s.handling = .ok true h := by
      rw [hrun, bind_ok hm]
      rfl
    have hbuild : handle env handler req r s = buildResponse h.response { s with handling := h } := handle_returned hok
    have hs' : ({ s with handling := h } : Serving).written = [] := hs
    have htells := buildResponse_tells h.response { s with handling := h }
    obtain ⟨hlength, hnone⟩ := granting_tells hs' htells
    rw [hbuild]
    rw [hm] at hend
    cases hend with
    | quiet hk hsame hgrants =>
      exact .quiet hk (by rw [htells.1]; exact hsame) (hnone (hgrants h rfl))
    | one row hk hadd hout hsend =>
      obtain ⟨response, hheaders, hwritten⟩ := buildResponse_sent hs' hsend
      refine .one row response hk (by rw [htells.1]; exact hadd) ?_ (by rw [hheaders]; exact hout)
      have hg : grants response.headers = true := by rw [hheaders]; exact hout.grants
      rw [hwritten]
      simp [granting, hg]
    | more rows hk hadd hne hlong =>
      refine .more rows hk (by rw [htells.1]; exact hadd) ?_
      cases hg : grants h.response.headers with
      | false =>
        rw [hnone hg]
        exact List.length_pos_iff.mpr hne
      | true => exact Nat.lt_of_le_of_lt hlength (hlong h rfl hg)

theorem findRoute_auth {env : Env} {path : Bytes} (h : strippedPath env path = text "/auth") :
    findRoute env (applicationRoutes env) path = some (authHandler env) := by
  rw [findRoute, h]
  rfl

/-- A single session is kept, and its token handed out, exactly when the first
`INSERT` that the login runs is its only one and is confirmed. -/
theorem login_issued {env : Env} (l : Login env) (w : World) :
    Issued (KeepsOne (l.sees w) (firstInsert env l.r (l.sees w))) w.db.sessions (l.serve w) := by
  let s : Serving := { handling := (authHandler env).construct env (l.sees w) }
  have hserve : l.serve w = left (handle env (authHandler env) l.req l.r s) := by
    rw [Login.serve, process, l.parsed]
    simp only [findRoute_auth l.path]
    rfl
  rw [hserve]
  have hrun {method : HttpRequest → Handle Unit} (hm : (authHandler env).method l.r.verb = some method) :
      (authHandler env).run l.r = method l.r >>= fun _ => pure true := by
    rw [Handler.run, hm]
    rfl
  have hs : s.written = [] := rfl
  rcases l.verb with hv | hv | hv
  · rw [firstInsert, hv]
    refine handle_issued hs (hrun (by rw [hv]; rfl)) ?_
    exact @get_ended env l.r s.handling rfl rfl
  · rw [firstInsert, hv]
    refine handle_issued hs (hrun (by rw [hv]; rfl)) ?_
    exact @post_ended env l.r s.handling rfl rfl
  · rw [firstInsert, hv]
    refine handle_issued hs (hrun (by rw [hv]; rfl)) ?_
    exact @put_ended env l.r s.handling rfl rfl rfl rfl

/-! ## Runs -/

/-- The world, and the responses that were written. -/
structure Logins where
  world : World
  written : List Response := []

/-- The next login. -/
def Logins.step {env : Env} (s : Logins) (l : Login env) : Option Logins :=
  some { world := (l.serve s.world).handling.world, written := s.written ++ (l.serve s.world).written }

/-- The sessions are those of before and, one for each response that hands out
a token, that token's. -/
def Matched (before : List SessionRow) (s : Logins) : Prop :=
  ∃ added, s.world.db.sessions = before ++ added ∧
    List.Forall₂ (fun (row : SessionRow) (r : Response) => HandsOut r.headers row.token) added (granting s.written)

/-- The login keeps to one session. -/
def Login.Kept {env : Env} (s : Logins) (l : Login env) : Prop :=
  KeepsOne (l.sees s.world) (firstInsert env l.r (l.sees s.world))

section

variable {env : Env} {before : List SessionRow} {s t : Logins} {l : Login env}

theorem matched_start (w : World) : Matched w.db.sessions { world := w } :=
  ⟨[], (List.append_nil _).symm, .nil⟩

/-- As many rows are added as there are logins that succeeded. -/
theorem Matched.count (h : Matched before s) :
    s.world.db.sessions.length = before.length + (granting s.written).length := by
  obtain ⟨added, hadded, hmatch⟩ := h
  rw [hadded, List.length_append, hmatch.length_eq]

theorem step_granting (h : s.step l = some t) :
    t.world = (l.serve s.world).handling.world ∧
      granting t.written = granting s.written ++ granting (l.serve s.world).written := by
  cases h
  exact ⟨rfl, List.filter_append ..⟩

theorem matched_keep (hs : Matched before s) (hk : l.Kept s) (h : s.step l = some t) : Matched before t := by
  obtain ⟨hworld, hgranting⟩ := step_granting h
  obtain ⟨added, hadded, hmatch⟩ := hs
  rcases login_issued l s.world with ⟨-, hsame, hnone⟩ | ⟨row, r, -, hadd, hone, hout⟩ | ⟨rows, hno, -, -⟩
  · refine ⟨added, by rw [hworld, hsame, hadded], ?_⟩
    rw [hgranting, hnone, List.append_nil]
    exact hmatch
  · refine ⟨added ++ [row], by rw [hworld, hadd, hadded, List.append_assoc], ?_⟩
    rw [hgranting, hone]
    exact List.rel_append hmatch (.cons hout .nil)
  · exact absurd hk hno

theorem matched_break (hs : Matched before s) (hno : ¬ l.Kept s) (h : s.step l = some t) : ¬ Matched before t := by
  obtain ⟨hworld, hgranting⟩ := step_granting h
  have hcount := hs.count
  intro ht
  have hcount' := ht.count
  rcases login_issued l s.world with ⟨hk, -, -⟩ | ⟨row, r, hk, -, -, -⟩ | ⟨rows, -, hadd, hlt⟩
  · exact hno hk
  · exact hno hk
  · rw [hworld, hadd, hgranting, List.length_append, List.length_append] at hcount'
    omega

end

/-- **Each session belongs to a login**, over a run, exactly when no login of
it creates one in the password check, and each `INSERT` that runs is
confirmed. -/
theorem logins_matched_iff {env : Env} (w : World) (ls : List (Login env)) :
    Always Logins.step (Matched w.db.sessions) { world := w } ls ↔
      Steps Logins.step (fun s (l : Login env) => l.Kept s) { world := w } ls :=
  always_iff_steps (fun _ h => h) (fun _ _ _ hs hk ht => matched_keep hs hk ht)
    (fun _ _ _ hs hno ht => matched_break hs hno ht) (matched_start w)

/-- The JSON of a login. -/
def loginJson : Json := .object [(text "email", .string (text "a@b")), (text "password", .string (text "p"))]

def loginEnv : Env := { plainEnv with parse := fun _ => .ok loginJson }

/-- `POST /auth`. -/
def passwordLogin : Request where
  method := .post
  methodString := text "POST"
  target := text "/auth"
  fields := []
  body := text "\x7b\"email\":\"a@b\",\"password\":\"p\"\x7d"
  method_ascii := post_ascii
  value_no_NUL := no_fields

def passwordHttpRequest : HttpRequest where
  verb := .post
  path := text "/auth"
  urlParams := []
  contentType := text "application/json"
  files := []
  body := passwordLogin.body

theorem passwordLogin_parsed : httpRequest passwordLogin = some passwordHttpRequest := by
  decide

/-- A login with the right password, and a driver that answers. -/
def rightPassword : Login loginEnv where
  req := passwordLogin
  r := passwordHttpRequest
  parsed := passwordLogin_parsed
  path := rfl
  verb := .inr (.inl rfl)
  now := 0
  faults := []

/-- One user, with the password `p`. -/
def withPassword : World where
  db := { users := [{ id := 1, email := text "a@b", hash := repeated 1, nacl := repeated 2 }] }

/-- A login with the right password adds two sessions. -/
theorem password_login_adds_two :
    ¬ ∀ (env : Env) (w : World) (ls : List (Login env)),
      Always Logins.step (Matched w.db.sessions) { world := w } ls := by
  intro h
  have hinsert : firstInsert loginEnv passwordHttpRequest (rightPassword.sees withPassword) = some ⟨2, true⟩ := by
    decide
  have hno : ¬ rightPassword.Kept { world := withPassword } := by
    intro hk
    have hexec : (rightPassword.sees withPassword).Executes 2 := ⟨rfl, rfl, .inl rfl⟩
    rw [Login.Kept, show rightPassword.r = passwordHttpRequest from rfl, hinsert] at hk
    cases (hk hexec).1
  obtain ⟨-, hafter⟩ := h loginEnv withPassword [rightPassword]
  exact matched_break (matched_start withPassword) hno rfl (hafter _ rfl)

end AudioToolApi
