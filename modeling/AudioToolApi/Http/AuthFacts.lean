/-
The sessions that `auth_handler` creates. `user_model::authenticate` creates
one, and `post` and `put` create another; a row stays where a later statement
fails. `firstInsert` says which `INSERT INTO sessions` a login comes to first,
and `KeepsOne` when it is the only one and its token is handed out.
-/
import AudioToolApi.Handlers.BaseFacts
import AudioToolApi.Http.ProcessFacts
import AudioToolApi.Models.UserFacts

namespace AudioToolApi

open Effects

/-! ## What is handed out -/

/-- Where a login is sent, up to the token. -/
def loginSuccess : Bytes := text "https://audiotool.v3x.pw/login/success/"

/-- The headers are those of a login that succeeded. -/
def grants (headers : Params) : Bool :=
  (headers.lookup (text "session-token")).isSome ||
    (headers.lookup (text "Location")).any fun location => loginSuccess.isPrefixOf location

/-- The client is given this token: in `session-token`, or in `Location`. -/
def HandsOut (headers : Params) (token : Bytes) : Prop :=
  headers.lookup (text "session-token") = some token ∨
    headers.lookup (text "Location") = some (loginSuccess ++ escapeToken token)

theorem HandsOut.grants {headers : Params} {token : Bytes} (h : HandsOut headers token) : grants headers = true := by
  rcases h with h | h
  · simp [AudioToolApi.grants, h]
  · simp [AudioToolApi.grants, h]

/-! ## What is sent -/

/-- The address and the password. -/
def credentials (env : Env) (r : HttpRequest) : Option (Bytes × Bytes) :=
  match sentJson env r with
  | .ok j =>
    match j.stringAt (text "email"), j.stringAt (text "password") with
    | .ok email, .ok pass => some (email, pass)
    | _, _ => none
  | .error _ => none

/-- The address that Google gives for the code. -/
def googleEmail (env : Env) (code : Bytes) (w : World) : Option Bytes :=
  match (getToken env code >>= getEmail env) w with
  | .ok email _ => some email
  | .error _ _ => none

/-! ## The first session -/

/-- The `INSERT INTO sessions` that a login comes to first: how many
statements there are before it, and whether `authenticate` runs it. -/
structure Insert where
  statements : Nat
  byCheck : Bool
  deriving DecidableEq, Repr

def getInsert (env : Env) (r : HttpRequest) (w : World) : Option Insert := do
  if r.hasParam (text "error") then none
  else
    let code ← r.urlParams.lookup (text "code")
    let email ← googleEmail env code w
    let _ ← (usersByEmail email w).head?
    return { statements := 1, byCheck := false }

def postInsert (env : Env) (r : HttpRequest) (w : World) : Option Insert := do
  let (email, pass) ← credentials env r
  if ← comparedHashes env email pass w then return { statements := 2, byCheck := true } else none

/-- The check is of the first user with the address, once the new one is
inserted. -/
def putInsert (env : Env) (r : HttpRequest) (w : World) : Option Insert := do
  let (email, pass) ← credentials env r
  let hash ← env.pbkdf2 pass (env.random w.draws)
  if ← comparedHashes env email pass (insertUser email hash (env.random w.draws) w) then
    return { statements := 3, byCheck := true }
  else return { statements := 2, byCheck := false }

def firstInsert (env : Env) (r : HttpRequest) (w : World) : Option Insert :=
  match r.verb with
  | .get => getInsert env r w
  | .post => postInsert env r w
  | .put => putInsert env r w
  | _ => none

/-- If that statement runs at all, it is not that of the check, and the
confirmation after it is answered. -/
def KeepsOne (w : World) : Option Insert → Prop
  | none => True
  | some insert => w.Executes insert.statements → insert.byCheck = false ∧ w.Sound (insert.statements + 2)

theorem keepsOne_unrun {w : World} {n : Nat} {b : Bool} (h : ¬ w.Executes n) : KeepsOne w (some ⟨n, b⟩) :=
  fun he => absurd he h

theorem not_keepsOne_check {w : World} {n : Nat} (h : w.Executes n) : ¬ KeepsOne w (some ⟨n, true⟩) := by
  intro hk
  cases (hk h).1

/-- One statement less. -/
theorem keepsOne_succ {w : World} {n : Nat} {b : Bool} (hf : w.fault = none) :
    KeepsOne w (some ⟨n + 1, b⟩) ↔ KeepsOne w.next (some ⟨n, b⟩) := by
  have hsound : w.Sound (n + 1 + 2) ↔ w.next.Sound (n + 2) := World.sound_succ.trans (and_iff_right hf)
  simp [KeepsOne, World.Executes, hf, hsound]

/-- Only the faults matter. -/
theorem keepsOne_of_eq {w w' : World} (hw : w'.faults = w.faults) (insert : Option Insert) :
    KeepsOne w' insert ↔ KeepsOne w insert := by
  cases insert with
  | none => exact Iff.rfl
  | some insert =>
    constructor
    · intro hk he
      obtain ⟨hb, hs⟩ := hk (he.of_eq hw)
      exact ⟨hb, hs.of_eq hw.symm⟩
    · intro hk he
      obtain ⟨hb, hs⟩ := hk (he.of_eq hw.symm)
      exact ⟨hb, hs.of_eq hw⟩

/-! ## How a method ends -/

/-- What a method leaves of the sessions, and tells of them. -/
inductive Ended (kept : Prop) (h : Handling) : EStateM.Result Exn Handling Unit → Prop
  | quiet {res} : kept → (left res).world.db.sessions = h.world.db.sessions →
      (∀ h', res = .ok () h' → grants h'.response.headers = false) → Ended kept h res
  | one {h'} (row : SessionRow) : kept → h'.world.db.sessions = h.world.db.sessions ++ [row] →
      HandsOut h'.response.headers row.token → Sendable h'.response → Ended kept h (.ok () h')
  | more {res} (rows : List SessionRow) : ¬ kept → (left res).world.db.sessions = h.world.db.sessions ++ rows →
      rows ≠ [] → (∀ h', res = .ok () h' → grants h'.response.headers = true → 2 ≤ rows.length) → Ended kept h res

theorem Ended.error {kept : Prop} {h h' : Handling} {e : Exn} (hk : kept)
    (hw : h'.world.db.sessions = h.world.db.sessions) : Ended kept h (.error e h') :=
  .quiet hk hw (by simp)

theorem Ended.left_over {kept : Prop} {h h' : Handling} {e : Exn} (row : SessionRow) (hk : ¬ kept)
    (hw : h'.world.db.sessions = h.world.db.sessions ++ [row]) : Ended kept h (.error e h') :=
  .more [row] hk hw (by simp) (by simp)

theorem Ended.congr {kept kept' : Prop} {h : Handling} {res : EStateM.Result Exn Handling Unit} (hk : kept ↔ kept')
    (hend : Ended kept h res) : Ended kept' h res := by
  rwa [← propext hk]

/-- A handler that has written no header yet. -/
def baseHeaders : Params := [(text "Access-Control-Allow-Origin", text "*")]

theorem emplace_lookup {ps : Params} {name : Bytes} (h : ps.lookup name = none) (value : Bytes) :
    (ps.emplace name value).lookup name = some value := by
  simp [Params.emplace, h]

theorem baseHeaders_session : baseHeaders.lookup (text "session-token") = none := by
  decide

theorem baseHeaders_location : baseHeaders.lookup (text "Location") = none := by
  decide

theorem badAuth_grants :
    grants (baseHeaders.emplace (text "Location") (text "https://audiotool.v3x.pw/login/error/badAuth")) = false := by
  decide

/-! ## Reading the credentials -/

section

variable {env : Env} {r : HttpRequest} {h : Handling}

/-- How `post` and `put` start. -/
def withCredentials (env : Env) (r : HttpRequest) (login : Bytes → Bytes → Handle Unit) : Handle Unit := do
  let j ← parseJson env r
  let email ← jsonString j (text "email")
  let pass ← jsonString j (text "password")
  login email pass

/-- Either the credentials are not sent, and it ends there, or they are used. -/
theorem withCredentials_cases (login : Bytes → Bytes → Handle Unit) (hj : h.json = .null) :
    (credentials env r = none ∧ ∃ e h', h.Read h' ∧ withCredentials env r login h = .error e h') ∨
      ∃ email pass h', credentials env r = some (email, pass) ∧ h.Read h' ∧
        withCredentials env r login h = login email pass h' := by
  obtain ⟨h', hread, hparse⟩ := @parseJson_read env r h hj
  rw [credentials, withCredentials]
  cases hs : sentJson env r with
  | error what =>
    rw [hs] at hparse
    exact .inl ⟨rfl, _, h', hread, bind_error hparse⟩
  | ok j =>
    rw [hs] at hparse
    simp only [bind_ok hparse, jsonString_eq]
    cases j.stringAt (text "email") with
    | error what => exact .inl ⟨rfl, _, h', hread, rfl⟩
    | ok email =>
      cases j.stringAt (text "password") with
      | error what => exact .inl ⟨rfl, _, h', hread, rfl⟩
      | ok pass => exact .inr ⟨email, pass, h', rfl, hread, rfl⟩

/-- A login that does not send its credentials ends there, before any
`INSERT`. -/
theorem withCredentials_ended {login : Bytes → Bytes → Handle Unit} {insert : Option Insert} (hj : h.json = .null)
    (hnone : credentials env r = none → insert = none)
    (hlogin : ∀ email pass h', credentials env r = some (email, pass) → h.Read h' →
      Ended (KeepsOne h.world insert) h (login email pass h')) :
    Ended (KeepsOne h.world insert) h (withCredentials env r login h) := by
  rcases @withCredentials_cases env r h login hj with ⟨hc, e, h', hread, he⟩ | ⟨email, pass, h', hc, hread, heq⟩
  · rw [he, hnone hc]
    exact .error trivial (by rw [hread.1])
  · rw [heq]
    exact hlogin email pass h' hc hread

/-! ## The session of the handler -/

/-- The end of `post` and `put`. -/
def createAndAnswer (env : Env) : Handle Unit := do
  let user ← inWorld ((← member (·.user)).createSession env)
  modify fun h => { h with user }
  answerSession

theorem createAndAnswer_apply :
    createAndAnswer env h =
      match Session.create env h.user.id h.world with
      | .ok session world => answerSession { h with world, user := { h.user with currentSession := session } }
      | .error e world => .error e { h with world } := by
  have hstart : createAndAnswer env h = (inWorld (h.user.createSession env) >>= fun user => do
      modify fun h => { h with user }
      answerSession) h := rfl
  rw [hstart, bind_apply, inWorld, User.createSession, bind_apply]
  cases Session.create env h.user.id h.world <;> rfl

theorem userJson_utf8 {u : User} (h : Utf8 u.emailAddress) : u.toJson.Utf8 := by
  have hne : text "id" ≠ text "email_address" := by decide
  have hlt : ¬ text "id" < text "email_address" := by decide
  have h1 : Utf8 (text "email_address") := by decide
  have h2 : Utf8 (text "id") := by decide
  simp [User.toJson, jsonify, insertMember, hne, hlt, Json.Utf8, Json.texts, textsOfMembers, h, h1, h2]

/-- How it ends. -/
inductive Granted (h : Handling) : EStateM.Result Exn Handling Unit → Prop
  | refused {e h'} : ¬ h.world.Executes 0 → h'.world.db.sessions = h.world.db.sessions → Granted h (.error e h')
  | stranded {e h'} (row : SessionRow) : h.world.Executes 0 → ¬ h.world.Sound 2 →
      h'.world.db.sessions = h.world.db.sessions ++ [row] → Granted h (.error e h')
  | granted {h'} (row : SessionRow) : h.world.Sound 2 → h'.world.db.sessions = h.world.db.sessions ++ [row] →
      HandsOut h'.response.headers row.token →
      (Utf8 h.user.emailAddress → h.response.status = 200 → Sendable h'.response) → Granted h (.ok () h')

theorem createAndAnswer_granted (hh : h.response.headers = baseHeaders) : Granted h (createAndAnswer env h) := by
  have hmade := sessionCreate_made env h.user.id h.world
  rw [createAndAnswer_apply]
  generalize Session.create env h.user.id h.world = res at hmade
  cases hmade with
  | refused hno hsame => exact .refused hno hsame
  | stranded row he hns hadd => exact .stranded row he hns hadd
  | @made s w' row hsound hadd htoken =>
    refine .granted row hsound hadd (.inl ?_) fun hu hs => ⟨?_, userJson_utf8 hu, ?_⟩
    · show (h.response.headers.emplace (text "session-token") s.token).lookup (text "session-token") = some row.token
      rw [hh, emplace_lookup baseHeaders_session, htoken]
    · show 0 ≤ h.response.status ∧ h.response.status ≤ 999
      omega
    · show bodiless h.response.status.toNat = false
      rw [hs]
      rfl

/-- After a session that `authenticate` created, there is a row too many
however the login ends. -/
theorem again_ended {kept : Prop} {h' : Handling} (hk : ¬ kept) (hh : h'.response.headers = baseHeaders)
    (row : SessionRow) (hadd : h'.world.db.sessions = h.world.db.sessions ++ [row]) :
    Ended kept h (createAndAnswer env h') := by
  have hgranted := @createAndAnswer_granted env h' hh
  generalize createAndAnswer env h' = res at hgranted
  cases hgranted with
  | refused _ hsame => exact .left_over row hk (hsame.trans hadd)
  | stranded row' _ _ hadd' =>
    refine .more [row, row'] hk ?_ (by simp) (by simp)
    simp only [left, hadd', hadd, List.append_assoc, List.singleton_append]
  | granted row' _ hadd' _ _ =>
    refine .more [row, row'] hk ?_ (by simp) (by simp)
    simp only [left, hadd', hadd, List.append_assoc, List.singleton_append]

/-- Where it is the only session. -/
theorem once_ended {h' : Handling} (hh : h'.response.headers = baseHeaders) (hs : h'.response.status = 200)
    (hu : Utf8 h'.user.emailAddress) (hsame : h'.world.db.sessions = h.world.db.sessions) :
    Ended (KeepsOne h'.world (some ⟨0, false⟩)) h (createAndAnswer env h') := by
  have hgranted := @createAndAnswer_granted env h' hh
  generalize createAndAnswer env h' = res at hgranted
  cases hgranted with
  | refused hno hsame' => exact .error (keepsOne_unrun hno) (hsame'.trans hsame)
  | stranded row he hns hadd =>
    rw [hsame] at hadd
    exact .left_over row (fun hk => hns (hk he).2) hadd
  | granted row hsound hadd hout hsend =>
    rw [hsame] at hadd
    exact .one row (fun _ => ⟨rfl, hsound⟩) hadd hout (hsend hu hs)

/-! ## The password check -/

section

variable {email pass : Bytes} {w w' : World} {u u' : User} {h' : Handling} {otherwise : Option Insert}

/-- The check ends the login. -/
theorem check_failed_ended {e : Exn} (hchecked : Checked env u email pass w (.error e w'))
    (hother : w.fault ≠ none → KeepsOne w otherwise) (hsame : w.db.sessions = h.world.db.sessions) :
    Ended (KeepsOne w ((comparedHashes env email pass w).bind fun equal => if equal then some ⟨2, true⟩ else otherwise))
      h (.error e { h' with world := w' }) := by
  cases hchecked with
  | failed htrue hfalse hsame' =>
    refine .error ?_ (hsame'.trans hsame)
    cases hcmp : comparedHashes env email pass w with
    | none => trivial
    | some equal =>
      cases equal with
      | true => exact keepsOne_unrun (htrue hcmp)
      | false => exact hother (hfalse hcmp)
  | stranded row hcmp he hadd =>
    rw [hcmp]
    exact .left_over row (not_keepsOne_check he) (hadd.trans (congrArg (· ++ [row]) hsame))

/-- The check lets the login on, and there is a session too many. -/
theorem check_passed_ended (hchecked : Checked env u email pass w (.ok (true, u') w'))
    (hh : h'.response.headers = baseHeaders) (hsame : w.db.sessions = h.world.db.sessions) :
    Ended (KeepsOne w ((comparedHashes env email pass w).bind fun equal => if equal then some ⟨2, true⟩ else otherwise))
      h (createAndAnswer env { h' with world := w', user := u' }) := by
  cases hchecked with
  | passed row hcmp he hadd =>
    have hadd' : w'.db.sessions = h.world.db.sessions ++ [row] := hadd.trans (congrArg (· ++ [row]) hsame)
    rw [hcmp]
    exact @again_ended env h _ { h' with world := w', user := u' } (not_keepsOne_check he) hh row hadd'

end

/-! ## `post` -/

/-- `post`, once it has the credentials. -/
def postLogin (env : Env) (email pass : Bytes) : Handle Unit := do
  let (didAuthenticate, user) ← inWorld ((← member (·.user)).authenticate env email pass)
  modify fun h => { h with user }
  if didAuthenticate then createAndAnswer env else throw (.http 403 (text "Authentication Failed"))

theorem postLogin_apply (email pass : Bytes) :
    postLogin env email pass h =
      match h.user.authenticate env email pass h.world with
      | .ok (true, user) world => createAndAnswer env { h with world, user }
      | .ok (false, user) world => .error (.http 403 (text "Authentication Failed")) { h with world, user }
      | .error e world => .error e { h with world } := by
  have hstart : postLogin env email pass h =
      (inWorld (h.user.authenticate env email pass) >>= fun (didAuthenticate, user) => do
        modify fun h => { h with user }
        if didAuthenticate then createAndAnswer env else throw (.http 403 (text "Authentication Failed"))) h := rfl
  rw [hstart, bind_apply, inWorld]
  cases h.user.authenticate env email pass h.world with
  | error e w => rfl
  | ok p w =>
    obtain ⟨b, user⟩ := p
    cases b <;> rfl

theorem authPost_eq (env : Env) (r : HttpRequest) : authPost env r = withCredentials env r (postLogin env) := by
  rw [authPost, withCredentials]
  refine bind_congr fun _ => bind_congr fun email => bind_congr fun pass => ?_
  refine bind_congr fun u => bind_congr fun p => ?_
  obtain ⟨b, user⟩ := p
  cases b with
  | true => rfl
  | false => rfl

theorem postInsert_some {email pass : Bytes} (hc : credentials env r = some (email, pass)) (w : World) :
    postInsert env r w =
      (comparedHashes env email pass w).bind fun equal => if equal then some ⟨2, true⟩ else none := by
  rw [postInsert, hc]
  rfl

theorem postLogin_ended {email pass : Bytes} (hc : credentials env r = some (email, pass)) {h' : Handling}
    (hread : h.Read h') (hh : h.response.headers = baseHeaders) :
    Ended (KeepsOne h.world (postInsert env r h.world)) h (postLogin env email pass h') := by
  obtain ⟨hw, hu, hr⟩ := hread
  have hchecked := authenticate_checked env h'.user email pass h.world
  rw [postLogin_apply, postInsert_some hc, hw]
  generalize h'.user.authenticate env email pass h.world = res at hchecked
  cases res with
  | error e w' => exact check_failed_ended hchecked (fun _ => trivial) rfl
  | ok p w' =>
    obtain ⟨b, u'⟩ := p
    cases b with
    | true => exact check_passed_ended hchecked (by rw [hr, hh]) rfl
    | false =>
      cases hchecked with
      | denied hcmp _ =>
        rw [hcmp]
        exact .error trivial rfl

theorem post_ended (hh : h.response.headers = baseHeaders) (hj : h.json = .null) :
    Ended (KeepsOne h.world (postInsert env r h.world)) h (authPost env r h) := by
  rw [authPost_eq]
  refine withCredentials_ended hj (fun hc => ?_) fun email pass h' hc hread => postLogin_ended hc hread hh
  rw [postInsert, hc]
  rfl

/-! ## `put` -/

/-- `put`, once it has the credentials. -/
def putSignUp (env : Env) (email pass : Bytes) : Handle Unit := do
  let user ← inWorld ((← member (·.user)).create env email pass)
  modify fun h => { h with user }
  createAndAnswer env

theorem putSignUp_apply (email pass : Bytes) :
    putSignUp env email pass h =
      match h.user.create env email pass h.world with
      | .ok user world => createAndAnswer env { h with world, user }
      | .error e world => .error e { h with world } := by
  have hstart : putSignUp env email pass h =
      (inWorld (h.user.create env email pass) >>= fun user => do
        modify fun h => { h with user }
        createAndAnswer env) h := rfl
  rw [hstart, bind_apply, inWorld]
  cases h.user.create env email pass h.world <;> rfl

theorem authPut_eq (env : Env) (r : HttpRequest) : authPut env r = withCredentials env r (putSignUp env) := by
  rw [authPut, withCredentials]
  refine bind_congr fun _ => bind_congr fun email => bind_congr fun pass => ?_
  refine bind_congr fun u => bind_congr fun user => ?_
  rfl

theorem putInsert_none {email pass : Bytes} (hc : credentials env r = some (email, pass)) {w : World}
    (hp : env.pbkdf2 pass (env.random w.draws) = none) : putInsert env r w = none := by
  simp [putInsert, hc, hp]

theorem putInsert_some {email pass : Bytes} (hc : credentials env r = some (email, pass)) {w : World} {hash : Block}
    (hp : env.pbkdf2 pass (env.random w.draws) = some hash) :
    putInsert env r w =
      (comparedHashes env email pass (withUser env email hash w)).bind fun equal =>
        if equal then some ⟨3, true⟩ else some ⟨2, false⟩ := by
  simp only [putInsert, hc, Option.bind_eq_bind, Option.bind_some, hp]
  rfl

/-- What follows the `INSERT` of the user. -/
theorem putInsert_kept {email pass : Bytes} (hc : credentials env r = some (email, pass)) {w : World} {hash : Block}
    (hp : env.pbkdf2 pass (env.random w.draws) = some hash) (hf : w.fault = none) :
    KeepsOne (withUser env email hash w)
        ((comparedHashes env email pass (withUser env email hash w)).bind fun equal =>
          if equal then some ⟨2, true⟩ else some ⟨1, false⟩) ↔
      KeepsOne w (putInsert env r w) := by
  have hfaults : (withUser env email hash w).faults = w.next.faults := rfl
  have hnext (n : Nat) (b : Bool) :
      KeepsOne (withUser env email hash w) (some ⟨n, b⟩) ↔ KeepsOne w (some ⟨n + 1, b⟩) :=
    (keepsOne_of_eq hfaults _).trans (keepsOne_succ hf).symm
  rw [putInsert_some hc hp]
  cases comparedHashes env email pass (withUser env email hash w) with
  | none => exact Iff.rfl
  | some equal =>
    cases equal with
    | true => exact hnext 2 true
    | false => exact hnext 1 false

theorem putSignUp_ended {email pass : Bytes} (hc : credentials env r = some (email, pass)) {h' : Handling}
    (hread : h.Read h') (hh : h.response.headers = baseHeaders) (hs : h.response.status = 200)
    (hu : h.user.emailAddress = []) :
    Ended (KeepsOne h.world (putInsert env r h.world)) h (putSignUp env email pass h') := by
  obtain ⟨hw, huser, hr⟩ := hread
  have hsigned := create_signedUp env h'.user email pass h.world
  rw [putSignUp_apply, hw]
  generalize h'.user.create env email pass h.world = res at hsigned
  cases hsigned with
  | failed hfault hsame =>
    refine .error ?_ hsame
    cases hp : env.pbkdf2 pass (env.random h.world.draws) with
    | none =>
      rw [putInsert_none hc hp]
      trivial
    | some hash =>
      have hunrun (n : Nat) : ¬ h.world.Executes (n + 1) := fun he => hfault hash hp he.1
      rw [putInsert_some hc hp]
      cases comparedHashes env email pass (withUser env email hash h.world) with
      | none => trivial
      | some equal => cases equal <;> exact keepsOne_unrun (hunrun _)
  | error hp hf hchecked =>
    refine .congr (putInsert_kept hc hp hf) (check_failed_ended hchecked (fun hf' => ?_) rfl)
    exact keepsOne_unrun fun he => hf' he.1
  | @ok hash b u' w' hp hf hchecked =>
    refine .congr (putInsert_kept hc hp hf) ?_
    cases b with
    | true => exact check_passed_ended hchecked (by rw [hr, hh]) rfl
    | false =>
      cases hchecked with
      | denied hcmp hf' =>
        -- the one way to a single session
        have hempty : Utf8 h'.user.emailAddress := by
          rw [huser, hu]
          decide
        have honce := @once_ended env h { h' with world := (withUser env email hash h.world).next }
          (by rw [hr, hh]) (by rw [hr, hs]) hempty rfl
        rw [hcmp]
        exact .congr (keepsOne_succ hf').symm honce

theorem put_ended (hh : h.response.headers = baseHeaders) (hs : h.response.status = 200)
    (hu : h.user.emailAddress = []) (hj : h.json = .null) :
    Ended (KeepsOne h.world (putInsert env r h.world)) h (authPut env r h) := by
  rw [authPut_eq]
  refine withCredentials_ended hj (fun hc => ?_) fun email pass h' hc hread => putSignUp_ended hc hread hh hs hu
  rw [putInsert, hc]
  rfl

/-! ## `get` -/

theorem orThrow_still {σ α : Type} (x : Except Bytes α) : Still (orThrow x : EStateM Exn σ α) := by
  cases x <;> exact fun _ => rfl

theorem getToken_still (env : Env) (code : Bytes) : Still (getToken env code) := by
  refine (orThrow_still _).bind fun j => ?_
  cases j.find (text "access_token") with
  | some token => exact orThrow_still _
  | none => exact .throw _

theorem getEmail_still (env : Env) (token : Bytes) : Still (getEmail env token) := by
  refine (orThrow_still _).bind fun people => ?_
  cases people.find (text "emailAddresses") with
  | some addresses =>
    simp only
    cases addresses.items.findSome? fun el => el.find (text "value") with
    | some value => exact orThrow_still _
    | none => exact .throw _
  | none =>
    simp only
    cases people.find (text "error") with
    | some error => exact (orThrow_still _).bind fun _ => .throw _
    | none => exact .throw _

/-- `get`, once it has the address. -/
def oauthSession (env : Env) (emailAddress : Bytes) : Handle Unit := do
  let user ← inWorld ((← member (·.user)).fillByEmail emailAddress)
  modify fun h => { h with user }
  let user ← inWorld (user.createSession env)
  modify fun h => { h with user }
  emplaceHeader (text "Location")
    (text "https://audiotool.v3x.pw/login/success/" ++ escapeToken user.currentSession.token)

theorem oauthSession_apply (email : Bytes) :
    oauthSession env email h =
      match h.user.fillByEmail email h.world with
      | .ok user world =>
        match Session.create env user.id world with
        | .ok session world =>
          emplaceHeader (text "Location") (loginSuccess ++ escapeToken session.token)
            { h with world, user := { user with currentSession := session } }
        | .error e world => .error e { h with world, user }
      | .error e world => .error e { h with world } := by
  have hstart : oauthSession env email h = (inWorld (h.user.fillByEmail email) >>= fun user => do
      modify fun h => { h with user }
      let user ← inWorld (user.createSession env)
      modify fun h => { h with user }
      emplaceHeader (text "Location") (loginSuccess ++ escapeToken user.currentSession.token)) h := rfl
  rw [hstart, bind_apply, inWorld]
  cases h.user.fillByEmail email h.world with
  | error e w => rfl
  | ok user w =>
    simp only [bind_apply, inWorld, modify, modifyGet_apply, User.createSession]
    cases Session.create env user.id w <;> rfl

theorem oauthLogin_eq (env : Env) (code : Bytes) :
    oauthLogin env code =
      inWorld (getToken env code) >>= fun token => inWorld (getEmail env token) >>= oauthSession env := by
  rw [oauthLogin]
  refine bind_congr fun token => bind_congr fun email => ?_
  rfl

/-- A login without an address ends there. -/
theorem oauthLogin_read (code : Bytes) :
    match googleEmail env code h.world with
    | some email => oauthLogin env code h = oauthSession env email h
    | none => ∃ e, oauthLogin env code h = .error e h := by
  rw [oauthLogin_eq, googleEmail, bind_apply, bind_apply, inWorld]
  have htoken := getToken_still env code h.world
  cases ht : getToken env code h.world with
  | error e w =>
    rw [ht] at htoken
    cases htoken
    exact ⟨e, rfl⟩
  | ok token w =>
    rw [ht] at htoken
    cases htoken
    have hemail := getEmail_still env token h.world
    cases he : getEmail env token h.world with
    | error e w =>
      rw [he] at hemail
      cases hemail
      simp only [bind_apply, inWorld, he]
      exact ⟨e, rfl⟩
    | ok email w =>
      rw [he] at hemail
      cases hemail
      simp only [bind_apply, inWorld, he]

/-- A forward has no body. -/
theorem forward_sendable {response : HTTPResponse} (hs : response.status = 302) (hb : response.content = .body [])
    (headers : Params) : Sendable { response with headers } := by
  rw [Sendable, hs, hb]
  exact ⟨by omega, fun _ => rfl⟩

/-- A method that has written no header where it fails. -/
def Headerless (res : EStateM.Result Exn Handling Unit) : Prop :=
  ∀ e t, res = .error e t → t.response.headers = baseHeaders

theorem oauthSession_ended {kept : Prop} {email : Bytes} {h' : Handling}
    (hkept : kept ↔ ((usersByEmail email h'.world).head?.isSome → h'.world.Executes 1 → h'.world.Sound 3))
    (hh : h'.response.headers = baseHeaders) (hs : h'.response.status = 302) (hb : h'.response.content = .body [])
    (hsame : h'.world.db.sessions = h.world.db.sessions) :
    Ended kept h (oauthSession env email h') ∧ Headerless (oauthSession env email h') := by
  rw [oauthSession_apply]
  rcases fillByEmail_apply h'.user email h'.world with ⟨e, he, hnone⟩ | ⟨hf, row, hrow, hok⟩
  · rw [he]
    refine ⟨.error (hkept.mpr fun hsome hexec => absurd hexec.1 (hnone hsome)) hsame, fun e' t ht => ?_⟩
    cases ht
    exact hh
  · have hmade := sessionCreate_made env row.id h'.world.next
    have hsome : (usersByEmail email h'.world).head?.isSome := by rw [hrow]; rfl
    rw [hok]
    simp only
    generalize Session.create env row.id h'.world.next = res at hmade
    cases hmade with
    | refused hno hsame' =>
      refine ⟨.error (hkept.mpr fun _ hexec => absurd hexec.2 hno) (hsame'.trans hsame), fun e' t ht => ?_⟩
      cases ht
      exact hh
    | stranded s he hns hadd =>
      refine ⟨.left_over s (fun hk => hns ?_) (hadd.trans (congrArg (· ++ [s]) hsame)), fun e' t ht => ?_⟩
      · exact (World.sound_succ.mp (hkept.mp hk hsome ⟨hf, he⟩)).2
      · cases ht
        exact hh
    | @made s w' srow hsound hadd htoken =>
      refine ⟨.one srow (hkept.mpr fun _ _ => World.sound_succ.mpr ⟨hf, hsound⟩)
        (hadd.trans (congrArg (· ++ [srow]) hsame)) (.inr ?_) ?_, fun e' t ht => ?_⟩
      · show (h'.response.headers.emplace (text "Location") (loginSuccess ++ escapeToken s.token)).lookup
          (text "Location") = some (loginSuccess ++ escapeToken srow.token)
        rw [hh, emplace_lookup baseHeaders_location, htoken]
      · exact forward_sendable hs hb _
      · cases ht

theorem badAuth_apply (hh : h.response.headers = baseHeaders) :
    ∃ h', badAuth h = .ok () h' ∧ h'.world = h.world ∧ grants h'.response.headers = false := by
  refine ⟨_, rfl, rfl, ?_⟩
  show grants (h.response.headers.emplace (text "Location") _) = false
  rw [hh]
  exact badAuth_grants

/-- What is caught leaves the sessions as they are, and hands out none. -/
theorem caught_ended {kept : Prop} {x : Handle Unit} {h' : Handling} (hend : Ended kept h (x h'))
    (hheaders : Headerless (x h')) : Ended kept h (catchRuntime x (fun _ => badAuth) h') := by
  rw [catchRuntime]
  generalize x h' = res at hend hheaders
  cases res with
  | ok _ t => exact hend
  | error e t =>
    obtain ⟨t', hbad, hworld, hgrants⟩ := badAuth_apply (hheaders e t rfl)
    have hcaught : Ended kept h (badAuth t) := by
      rw [hbad]
      cases hend with
      | quiet hk hsame =>
        refine .quiet hk (by rw [left, hworld]; exact hsame) fun h'' hok => ?_
        cases hok
        exact hgrants
      | more rows hk hadd hne =>
        refine .more rows hk (by rw [left, hworld]; exact hadd) hne fun h'' hok htrue => ?_
        cases hok
        rw [hgrants] at htrue
        cases htrue
    cases e with
    | http code what | runtime what => exact hcaught
    | std what | other | gone => exact hend

/-- This handler always forwards. -/
def forwarding (h : Handling) : Handling := { h with response := { h.response with status := 302 } }

theorem authGet_apply (env : Env) (r : HttpRequest) (h : Handling) :
    authGet env r h = (if r.hasParam (text "error") then badAuth
      else
        match r.urlParams.lookup (text "code") with
        | some code => catchRuntime (oauthLogin env code) fun _ => badAuth
        | none => badAuth) (forwarding h) := rfl

theorem get_ended (hh : h.response.headers = baseHeaders) (hb : h.response.content = .body []) :
    Ended (KeepsOne h.world (getInsert env r h.world)) h (authGet env r h) := by
  have hbad {kept : Prop} (hk : kept) : Ended kept h (badAuth (forwarding h)) := by
    obtain ⟨h', hbad, hworld, hgrants⟩ := @badAuth_apply (forwarding h) hh
    rw [hbad]
    refine .quiet hk (by rw [left, hworld]; rfl) fun h'' hok => ?_
    cases hok
    exact hgrants
  rw [authGet_apply, getInsert]
  split
  · exact hbad trivial
  · cases hcode : r.urlParams.lookup (text "code") with
    | none => exact hbad trivial
    | some code =>
      have hread := @oauthLogin_read env (forwarding h) code
      simp only [Option.bind_eq_bind, Option.bind_some]
      cases hemail : googleEmail env code h.world with
      | none =>
        have hnone : googleEmail env code (forwarding h).world = none := hemail
        rw [hnone] at hread
        obtain ⟨e, he⟩ := hread
        refine caught_ended ?_ fun e' t ht => ?_
        · rw [he]
          exact .error trivial rfl
        · rw [he] at ht
          cases ht
          exact hh
      | some email =>
        have hsome : googleEmail env code (forwarding h).world = some email := hemail
        have hkept : KeepsOne h.world ((usersByEmail email h.world).head?.bind fun _ => some ⟨1, false⟩) ↔
            ((usersByEmail email h.world).head?.isSome → h.world.Executes 1 → h.world.Sound 3) := by
          cases (usersByEmail email h.world).head? with
          | none => simp [KeepsOne]
          | some row => simp [KeepsOne]
        obtain ⟨hend, hheaders⟩ := @oauthSession_ended env h _ email (forwarding h) hkept hh rfl hb rfl
        rw [hsome] at hread
        simp only at hread
        rw [← hread] at hend hheaders
        exact caught_ended hend hheaders

end

end AudioToolApi
