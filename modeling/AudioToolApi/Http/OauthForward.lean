/-
Where the OAuth callback sends its client. `auth_handler::get` "always
forwards", it says, and catches `runtime_error`; but a body that is not JSON,
a token or an address that is no string, and a missing address end in other
exceptions. `callback_forwards_iff` says what Google has to answer.
-/
import AudioToolApi.Http.AuthFacts

namespace AudioToolApi

open Effects

/-! ## What Google answers -/

/-- JSON without a token. -/
def DeniesToken (env : Env) (code : Bytes) : Prop :=
  ∃ j, env.parse (env.tokenReply (tokenForm env code)) = .ok j ∧ j.find (text "access_token") = none

def GivesToken (env : Env) (code token : Bytes) : Prop :=
  ∃ j, env.parse (env.tokenReply (tokenForm env code)) = .ok j ∧ j.find (text "access_token") = some (.string token)

/-- The address is the first `value` of the entries. -/
def GivesEmail (env : Env) (token email : Bytes) : Prop :=
  ∃ people addresses, env.parse (env.peopleReply token) = .ok people ∧
    people.find (text "emailAddresses") = some addresses ∧
      (addresses.items.findSome? fun el => el.find (text "value")) = some (.string email)

/-- There is one token at most, and none where it is denied. -/
theorem GivesToken.unique {env : Env} {code token token' : Bytes} (h : GivesToken env code token)
    (h' : GivesToken env code token') : token = token' := by
  obtain ⟨j, hp, hf⟩ := h
  obtain ⟨j', hp', hf'⟩ := h'
  simp_all

theorem GivesToken.not_denied {env : Env} {code token : Bytes} (h : GivesToken env code token) :
    ¬ DeniesToken env code := by
  intro ⟨j', hp', hf'⟩
  obtain ⟨j, hp, hf⟩ := h
  simp_all

theorem GivesEmail.unique {env : Env} {token email email' : Bytes} (h : GivesEmail env token email)
    (h' : GivesEmail env token email') : email = email' := by
  obtain ⟨people, addresses, hp, hf, hv⟩ := h
  obtain ⟨people', addresses', hp', hf', hv'⟩ := h'
  simp_all

/-- How `get_token` ends. -/
inductive TokenRead (env : Env) (code : Bytes) (w : World) : EStateM.Result Exn World Bytes → Prop
  | given {token} : GivesToken env code token → TokenRead env code w (.ok token w)
  | denied {what} : DeniesToken env code → TokenRead env code w (.error (.runtime what) w)
  | unread {what} : ¬ DeniesToken env code → (∀ token, ¬ GivesToken env code token) →
      TokenRead env code w (.error (.std what) w)

theorem getToken_read (env : Env) (code : Bytes) (w : World) : TokenRead env code w (getToken env code w) := by
  rw [getToken]
  cases hp : env.parse (env.tokenReply (tokenForm env code)) with
  | error what => exact .unread (by simp [DeniesToken, hp]) (by simp [GivesToken, hp])
  | ok j =>
    have hj : (orThrow (.ok j) : Act Json) w = .ok j w := rfl
    rw [bind_ok hj]
    cases hf : j.find (text "access_token") with
    | none => exact .denied ⟨j, hp, hf⟩
    | some t =>
      cases t with
      | string token => exact .given ⟨j, hp, hf⟩
      | _ => exact .unread (by simp [DeniesToken, hp, hf]) (by simp [GivesToken, hp, hf])

/-- How `get_email` ends. -/
inductive EmailRead (env : Env) (token : Bytes) (w : World) : EStateM.Result Exn World Bytes → Prop
  | given {email} : GivesEmail env token email → EmailRead env token w (.ok email w)
  | unread {what} : (∀ email, ¬ GivesEmail env token email) → EmailRead env token w (.error (.std what) w)

theorem getEmail_read (env : Env) (token : Bytes) (w : World) : EmailRead env token w (getEmail env token w) := by
  rw [getEmail]
  cases hp : env.parse (env.peopleReply token) with
  | error what => exact .unread (by simp [GivesEmail, hp])
  | ok people =>
    have hj : (orThrow (.ok people) : Act Json) w = .ok people w := rfl
    rw [bind_ok hj]
    cases hf : people.find (text "emailAddresses") with
    | none =>
      have hno : ∀ email, ¬ GivesEmail env token email := by simp [GivesEmail, hp, hf]
      cases people.find (text "error") with
      | none => exact .unread hno
      | some error =>
        show EmailRead env token w ((orThrow error.dump >>= fun _ => throw (.std nullString)) w)
        cases error.dump with
        | error what => exact .unread hno
        | ok _ => exact .unread hno
    | some addresses =>
      simp only
      cases hv : addresses.items.findSome? fun el => el.find (text "value") with
      | none => exact .unread (by simp [GivesEmail, hp, hf, hv])
      | some value =>
        cases value with
        | string email => exact .given ⟨people, addresses, hp, hf, hv⟩
        | _ => exact .unread (by simp [GivesEmail, hp, hf, hv])

/-! ## The session -/

/-- How many statements a login with the address comes to. -/
def loginStatements (email : Bytes) (db : Tables) : Nat := if (db.users.filter (·.email = email)).isEmpty then 1 else 3

/-- How `fill_by_email` ends. -/
inductive Found (u : User) (email : Bytes) (w : World) : EStateM.Result Exn World User → Prop
  | ok (user : UserRow) : w.fault = none → (usersByEmail email w).head? = some user →
      Found u email w (.ok { u with id := user.id, emailAddress := email } w.next)
  | failed {what w'} : ¬ w.Hangs (loginStatements email w.db) → Found u email w (.error (.runtime what) w')
  | hung {w'} : w.Hangs (loginStatements email w.db) → Found u email w (.error .gone w')

theorem fillByEmail_found (u : User) (email : Bytes) (w : World) : Found u email w (u.fillByEmail email w) := by
  have htakes : Takes 1 w (select (fun v => v.db.users.filter (·.email = email)) w) := takes_one _ w
  have hfirst : 1 ≤ loginStatements email w.db := by
    rw [loginStatements]
    split <;> omega
  rw [User.fillByEmail, bind_apply]
  cases hselect : select (fun v => v.db.users.filter (·.email = email)) w with
  | error e v =>
    rw [hselect] at htakes
    cases htakes with
    | failed hns hno => exact .failed ((World.hangs_of_unsound hns hfirst).not.mpr hno)
    | hung hhangs =>
      have hns : ¬ w.Sound 1 := fun hs => hs.not_hangs hhangs
      exact .hung ((World.hangs_of_unsound hns hfirst).mpr hhangs)
  | ok rows v =>
    obtain ⟨hf, rfl, rfl⟩ := select_ok_iff.mp hselect
    show Found u email w ((firstRow noUser (usersByEmail email w) >>= _) w.next)
    cases hrows : usersByEmail email w with
    | nil =>
      have hone : loginStatements email w.db = 1 := if_pos (List.isEmpty_iff.mpr hrows)
      refine .failed ?_
      rw [hone, World.hangs_of_none hf]
      exact World.not_hangs_zero
    | cons user rest => exact .ok user hf (by rw [hrows]; rfl)

/-- A forward to the address, and to no other. -/
def SentTo (address : Bytes) (h : Handling) : Prop :=
  h.response.status = 302 ∧ h.response.headers.filter (·.1 = text "Location") = [(text "Location", address)]

theorem baseHeaders_forward (address : Bytes) :
    (baseHeaders.emplace (text "Location") address).filter (·.1 = text "Location") = [(text "Location", address)] := by
  have hnone : baseHeaders.filter (·.1 = text "Location") = [] := by decide
  rw [Params.emplace, baseHeaders_location]
  simp [hnone]

/-- How a login with the address ends. -/
inductive LoggedIn (email : Bytes) (h : Handling) : EStateM.Result Exn Handling Unit → Prop
  | ok {h'} (user : UserRow) (row : SessionRow) : ¬ h.world.Hangs (loginStatements email h.world.db) →
      (usersByEmail email h.world).head? = some user → h'.world.db.sessions = h.world.db.sessions ++ [row] →
      row.userId = user.id → SentTo (loginSuccess ++ escapeToken row.token) h' → LoggedIn email h (.ok () h')
  | failed {what h'} : ¬ h.world.Hangs (loginStatements email h.world.db) → h'.response = h.response →
      LoggedIn email h (.error (.runtime what) h')
  | hung {h'} : h.world.Hangs (loginStatements email h.world.db) → LoggedIn email h (.error .gone h')

variable {env : Env} {r : HttpRequest} {h : Handling}

theorem oauthSession_loggedIn {email : Bytes} (hh : h.response.headers = baseHeaders) (hs : h.response.status = 302) :
    LoggedIn email h (oauthSession env email h) := by
  have hfound := fillByEmail_found h.user email h.world
  rw [oauthSession_apply]
  generalize h.user.fillByEmail email h.world = res at hfound
  cases hfound with
  | failed hno => exact .failed hno rfl
  | hung hhung => exact .hung hhung
  | ok user hf huser =>
    have hopened := sessionCreate_opened env user.id h.world.next
    have hstatements : h.world.Hangs (loginStatements email h.world.db) ↔ h.world.next.Hangs 2 := by
      have hthree : loginStatements email h.world.db = 3 := by
        refine if_neg fun hrows => ?_
        rw [usersByEmail, List.isEmpty_iff.mp hrows] at huser
        cases huser
      rw [hthree, World.hangs_of_none hf]
    simp only
    generalize Session.create env user.id h.world.next = res at hopened
    cases hopened with
    | failed hno => exact .failed (hstatements.not.mpr hno) rfl
    | hung hhung => exact .hung (hstatements.mpr hhung)
    | @ok s w' row hno hadd hid htoken =>
      refine .ok user row (hstatements.not.mpr hno) huser hadd hid ⟨hs, ?_⟩
      show (h.response.headers.emplace (text "Location") (loginSuccess ++ escapeToken s.token)).filter _ = _
      rw [hh, baseHeaders_forward, htoken]

/-! ## The forward -/

/-- The callback has returned a forward: to an error, or to a session that is
now there for the user with the address. -/
inductive Forwarded (env : Env) (r : HttpRequest) (db : Tables) : EStateM.Result Exn Handling Unit → Prop
  | toError {h'} : SentTo (text "https://audiotool.v3x.pw/login/error/badAuth") h' → Forwarded env r db (.ok () h')
  | toSession {code token email h'} (user : UserRow) (row : SessionRow) :
      r.urlParams.lookup (text "code") = some code → GivesToken env code token → GivesEmail env token email →
      (db.users.filter (·.email = email)).head? = some user → h'.world.db.sessions = db.sessions ++ [row] →
      row.userId = user.id → SentTo (loginSuccess ++ escapeToken row.token) h' → Forwarded env r db (.ok () h')

/-- What has to be sent, and answered. -/
inductive Answered (env : Env) (r : HttpRequest) (w : World) : Prop
  | error : r.hasParam (text "error") = true → Answered env r w
  | noCode : r.urlParams.lookup (text "code") = none → Answered env r w
  | denied {code} : r.urlParams.lookup (text "code") = some code → DeniesToken env code → Answered env r w
  | given {code token email} : r.urlParams.lookup (text "code") = some code → GivesToken env code token →
      GivesEmail env token email → ¬ w.Hangs (loginStatements email w.db) → Answered env r w

theorem badAuth_forwarded {db : Tables} (hh : h.response.headers = baseHeaders) (hs : h.response.status = 302) :
    Forwarded env r db (badAuth h) := by
  refine .toError ⟨hs, ?_⟩
  show (h.response.headers.emplace (text "Location") _).filter _ = _
  rw [hh, baseHeaders_forward]

/-- Only the tables and the faults matter. -/
theorem answered_of_eq {w w' : World} (hdb : w'.db = w.db) (hw : w'.faults = w.faults) :
    Answered env r w' ↔ Answered env r w := by
  have himp {v v' : World} (hdb : v'.db = v.db) (hv : v'.faults = v.faults) (h : Answered env r v) :
      Answered env r v' := by
    cases h with
    | error h => exact .error h
    | noCode h => exact .noCode h
    | denied h hd => exact .denied h hd
    | given h ht hm hno => exact .given h ht hm (by rwa [hdb, World.hangs_of_eq hv])
  exact ⟨himp hdb.symm hw.symm, himp hdb hw⟩

/-- With a code, that is what Google answers to it. -/
theorem answered_code_iff {w : World} {code : Bytes} (he : r.hasParam (text "error") = false)
    (hcode : r.urlParams.lookup (text "code") = some code) :
    Answered env r w ↔ DeniesToken env code ∨
      ∃ token email, GivesToken env code token ∧ GivesEmail env token email ∧ ¬ w.Hangs (loginStatements email w.db) := by
  constructor
  · intro h
    cases h with
    | error h => simp [h] at he
    | noCode h => simp [h] at hcode
    | denied h hd =>
      cases hcode.symm.trans h
      exact .inl hd
    | given h ht hm hno =>
      cases hcode.symm.trans h
      exact .inr ⟨_, _, ht, hm, hno⟩
  · intro h
    rcases h with hd | ⟨token, email, ht, hm, hno⟩
    · exact .denied hcode hd
    · exact .given hcode ht hm hno

theorem not_forwarded_error {db : Tables} {e : Exn} : ¬ Forwarded env r db (.error e h) := nofun

/-- A login with a code is forwarded as far as it is answered. -/
theorem oauthLogin_forwarded_iff {code : Bytes} (he : r.hasParam (text "error") = false)
    (hcode : r.urlParams.lookup (text "code") = some code) (hh : h.response.headers = baseHeaders)
    (hs : h.response.status = 302) :
    Forwarded env r h.world.db (catchRuntime (oauthLogin env code) (fun _ => badAuth) h) ↔ Answered env r h.world := by
  have htoken := getToken_read env code h.world
  rw [answered_code_iff he hcode, oauthLogin_eq, catchRuntime, bind_apply, inWorld]
  generalize getToken env code h.world = res at htoken
  cases htoken with
  | denied hd => exact iff_of_true (badAuth_forwarded hh hs) (.inl hd)
  | unread hd ht =>
    refine iff_of_false not_forwarded_error ?_
    rintro (hd' | ⟨token, _, ht', _⟩)
    · exact hd hd'
    · exact ht token ht'
  | @given token ht =>
    have hemail := getEmail_read env token h.world
    simp only [bind_apply, inWorld]
    generalize getEmail env token h.world = res at hemail
    cases hemail with
    | unread hm =>
      refine iff_of_false not_forwarded_error ?_
      rintro (hd | ⟨token', email, ht', hm', _⟩)
      · exact ht.not_denied hd
      · cases ht.unique ht'
        exact hm email hm'
    | @given email hm =>
      have hin := @oauthSession_loggedIn env h email hh hs
      simp only
      generalize oauthSession env email h = res at hin
      cases hin with
      | ok user row hno huser hadd hid hsent =>
        exact iff_of_true (.toSession user row hcode ht hm huser hadd hid hsent) (.inr ⟨token, email, ht, hm, hno⟩)
      | failed hno hsame =>
        refine iff_of_true ?_ (.inr ⟨token, email, ht, hm, hno⟩)
        exact badAuth_forwarded (by rw [hsame, hh]) (by rw [hsame, hs])
      | hung hhung =>
        refine iff_of_false not_forwarded_error ?_
        rintro (hd | ⟨token', email', ht', hm', hno⟩)
        · exact ht.not_denied hd
        · cases ht.unique ht'
          cases hm.unique hm'
          exact hno hhung

/-- **The callback forwards exactly when** it is told of an error or gets no
code, or Google's answers can be read: JSON without a token, or with one that
is a string, and then JSON whose first `value` is a string, for which the
database ends every statement. -/
theorem callback_forwards_iff (env : Env) (r : HttpRequest) (w : World) :
    Forwarded env r w.db ((authHandler env).get r ((authHandler env).construct env w)) ↔ Answered env r w := by
  show Forwarded env r w.db (authGet env r ((authHandler env).construct env w)) ↔ _
  rw [authGet_apply]
  split
  next he => exact iff_of_true (badAuth_forwarded rfl rfl) (.error he)
  next he =>
    cases hcode : r.urlParams.lookup (text "code") with
    | none => exact iff_of_true (badAuth_forwarded rfl rfl) (.noCode hcode)
    | some code =>
      have hlogin := @oauthLogin_forwarded_iff env r (forwarding ((authHandler env).construct env w)) code
        (by simpa using he) hcode rfl rfl
      refine hlogin.trans (answered_of_eq ?_ ?_)
      · rfl
      · rfl

def sentCode : HttpRequest where
  verb := .get
  path := text "/auth"
  urlParams := [(text "code", text "4")]
  contentType := text "application/json"
  files := []
  body := []

/-- Google is not reached: the answer stays empty, which is no JSON. -/
theorem unread_answer_escapes :
    (authHandler plainEnv).get sentCode ((authHandler plainEnv).construct plainEnv {}) =
        .error (.std []) (forwarding ((authHandler plainEnv).construct plainEnv {})) ∧
      ¬ Forwarded plainEnv sentCode {}
        ((authHandler plainEnv).get sentCode ((authHandler plainEnv).construct plainEnv {})) := by
  have hparams : sentCode.hasParam (text "error") = false ∧ sentCode.urlParams.lookup (text "code") = some (text "4") := by
    decide
  have hlogin : (authHandler plainEnv).get sentCode ((authHandler plainEnv).construct plainEnv {}) =
      .error (.std []) (forwarding ((authHandler plainEnv).construct plainEnv {})) := by
    show authGet plainEnv sentCode ((authHandler plainEnv).construct plainEnv {}) = _
    rw [authGet_apply, hparams.1, hparams.2]
    rfl
  rw [hlogin]
  exact ⟨rfl, not_forwarded_error⟩

end AudioToolApi
