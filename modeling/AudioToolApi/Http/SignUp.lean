/-
Whose sessions a sign-up creates. `user_model::create` inserts a user and
checks the password of the first user with the address, who need not be the
new one; that the check fails is logged, and `put` goes on to create a session
for an id that nothing has set. `signUp_own_iff` says when none of that
happens.
-/
import AudioToolApi.Http.AuthFacts

namespace AudioToolApi

open Effects

/-- The check that `create` runs after the `INSERT` lets the user in. -/
def CheckPasses (env : Env) (email pass : Bytes) (w : World) : Prop :=
  ∃ hash u w', env.pbkdf2 pass (env.random w.draws) = some hash ∧ w.fault = none ∧
    (User.new env).authenticate env email pass (withUser env email hash w) = .ok (true, u) w'

/-- Sessions are created and returned for the user that the request inserts
alone, and for nobody where the check does not pass. -/
structure OwnOnly (env : Env) (r : HttpRequest) (w : World) (res : EStateM.Result Exn Handling Unit) : Prop where
  own : ∃ added, (left res).world.db.sessions = w.db.sessions ++ added ∧
    (∀ s ∈ added, ∃ user, (left res).world.db.users = w.db.users ++ [user] ∧ s.userId = user.id) ∧
      ∀ h token, res = .ok () h → h.response.headers.lookup (text "session-token") = some token →
        ∃ s ∈ added, s.token = token
  checked : ∀ email pass, credentials env r = some (email, pass) → ¬ CheckPasses env email pass w →
    (left res).world.db.sessions = w.db.sessions ∧
      ∀ h, res = .ok () h → h.response.headers.lookup (text "session-token") = none

/-- The first user with the address is the new one, and the check is answered,
where `strcmp` takes their hash for that of the password and a session is
inserted; and none is inserted where it does not. -/
def ChecksItself (env : Env) (r : HttpRequest) (w : World) : Prop :=
  ∀ email pass hash, credentials env r = some (email, pass) → env.pbkdf2 pass (env.random w.draws) = some hash →
    (comparedHashes env email pass (withUser env email hash w) = some true → w.Executes 3 →
      w.Sound 5 ∧ ∃ first, (usersByEmail email (withUser env email hash w)).head? = some first ∧ first.id = w.db.nextUser) ∧
    (comparedHashes env email pass (withUser env email hash w) = some false → ¬ w.Executes 2)

variable {env : Env} {r : HttpRequest} {w : World}

/-- Nothing is created where the request ends early. -/
theorem ownOnly_error {h : Handling} {e : Exn} (hsame : h.world.db.sessions = w.db.sessions) :
    OwnOnly env r w (.error e h) where
  own := ⟨[], by rw [List.append_nil]; exact hsame, List.forall_mem_nil _, fun _ _ h _ => nomatch h⟩
  checked _ _ _ _ := ⟨hsame, fun _ h => nomatch h⟩

/-- The token that the end of `put` hands out is that of the session it
created. -/
theorem createAndAnswer_token {h h' : Handling} {token : Bytes} (hh : h.response.headers = baseHeaders)
    (hok : createAndAnswer env h = .ok () h')
    (htoken : h'.response.headers.lookup (text "session-token") = some token) :
    ∃ row, h'.world.db.sessions = h.world.db.sessions ++ [row] ∧ row.token = token := by
  have hopened := sessionCreate_opened env h.user.id h.world
  rw [createAndAnswer_apply] at hok
  generalize Session.create env h.user.id h.world = res at hopened hok
  cases hopened with
  | failed _ => cases hok
  | hung _ => cases hok
  | @ok s w' row _ hadd _ hs =>
    have hlookup : (h.response.headers.emplace (text "session-token") s.token).lookup (text "session-token") =
        some s.token := by
      rw [hh]
      exact emplace_lookup baseHeaders_session _
    cases hok
    exact ⟨row, hadd, hs.trans (Option.some.inj (hlookup.symm.trans htoken))⟩

theorem createAndAnswer_addedFor {h : Handling} {owner : Int} {start : Tables} (hid : h.user.id = owner)
    (hadded : AddedFor owner start h.world.db) : AddedFor owner start (left (createAndAnswer env h)).world.db := by
  have hcreate : AddedFor owner start (left (Session.create env h.user.id h.world)).db := by
    rw [hid]
    exact (sessionCreate_addedFor env owner start).kept hadded
  rw [createAndAnswer_apply]
  generalize Session.create env h.user.id h.world = res at hcreate
  cases res with
  | ok u w' => exact hcreate
  | error e w' => exact hcreate

/-! ## Once the user is inserted -/

section

variable {email pass : Bytes} {hash : Block} {first : UserRow}

theorem withUser_users : (withUser env email hash w).db.users =
    w.db.users ++ [{ id := w.db.nextUser, email, hash, nacl := env.random w.draws }] := rfl

/-- There is a first user with the address. -/
theorem withUser_first (env : Env) (email : Bytes) (hash : Block) (w : World) :
    ∃ first, (usersByEmail email (withUser env email hash w)).head? = some first := by
  let user : UserRow := { id := w.db.nextUser, email, hash, nacl := env.random w.draws }
  have hmem : user ∈ usersByEmail email (withUser env email hash w) :=
    List.mem_filter.mpr ⟨List.mem_append_right _ (.head _), decide_eq_true rfl⟩
  exact Option.isSome_iff_exists.mp (List.isSome_head?.mpr (List.ne_nil_of_mem hmem))

theorem checkPasses_iff (hp : env.pbkdf2 pass (env.random w.draws) = some hash) (hf : w.fault = none) :
    CheckPasses env email pass w ↔
      ∃ u w', (User.new env).authenticate env email pass (withUser env email hash w) = .ok (true, u) w' := by
  simp [CheckPasses, hp, hf]

/-- The condition, at the check. -/
theorem checksItself_iff (hc : credentials env r = some (email, pass))
    (hp : env.pbkdf2 pass (env.random w.draws) = some hash) (hf : w.fault = none)
    (hfirst : (usersByEmail email (withUser env email hash w)).head? = some first) :
    ChecksItself env r w ↔
      (comparedHashes env email pass (withUser env email hash w) = some true → (withUser env email hash w).Executes 2 →
        (withUser env email hash w).Sound 4 ∧ first.id = w.db.nextUser) ∧
      (comparedHashes env email pass (withUser env email hash w) = some false →
        ¬ (withUser env email hash w).Executes 1) := by
  have hfaults : (withUser env email hash w).faults = w.next.faults := rfl
  have hexec (n : Nat) : w.Executes (n + 1) ↔ (withUser env email hash w).Executes n := by
    rw [World.Executes, and_iff_right hf]
    exact ⟨fun h => h.of_eq hfaults, fun h => h.of_eq hfaults.symm⟩
  have hsound : w.Sound 5 ↔ (withUser env email hash w).Sound 4 := by
    rw [World.sound_succ, and_iff_right hf]
    exact ⟨fun h => h.of_eq hfaults, fun h => h.of_eq hfaults.symm⟩
  simp only [ChecksItself, hc, Option.some.injEq, Prod.mk.injEq]
  constructor
  · intro h
    have h := h email pass hash ⟨rfl, rfl⟩ hp
    simpa [hexec, hsound, hfirst] using h
  · rintro h _ _ hash' ⟨rfl, rfl⟩ hp'
    cases hp.symm.trans hp'
    simpa [hexec, hsound, hfirst] using h

/-- A session is added where the check has not passed. -/
theorem not_ownOnly_of_added {res : EStateM.Result Exn Handling Unit} {row : SessionRow}
    (hc : credentials env r = some (email, pass)) (hno : ¬ CheckPasses env email pass w)
    (hadd : (left res).world.db.sessions = w.db.sessions ++ [row]) : ¬ OwnOnly env r w res := by
  intro h
  have hsame := (h.checked email pass hc hno).1
  simp [hadd] at hsame

variable {h : Handling}

/-- The check lets the password of the first user with the address pass. -/
theorem ownOnly_passed_iff {u : User} {w' : World} {row : SessionRow} (hh : h.response.headers = baseHeaders)
    (hpasses : ∀ email' pass', credentials env r = some (email', pass') → CheckPasses env email' pass' w)
    (hadded : AddedFor first.id (withUser env email hash w).db w'.db) (hid : u.id = first.id)
    (hrow : w'.db.sessions = w.db.sessions ++ [row]) :
    OwnOnly env r w (createAndAnswer env { h with world := w', user := u }) ↔ first.id = w.db.nextUser := by
  obtain ⟨husers, added, hsessions, hall⟩ :=
    @createAndAnswer_addedFor env { h with world := w', user := u } _ _ hid hadded
  obtain ⟨-, more, hmore, -⟩ :=
    @createAndAnswer_addedFor env { h with world := w', user := u } _ _ hid (.refl first.id w'.db)
  have hsplit : added = row :: more := by
    have hboth : w.db.sessions ++ added = w.db.sessions ++ row :: more := by
      rw [List.append_cons, ← hrow, ← hmore]
      exact hsessions.symm
    exact List.append_cancel_left hboth
  constructor
  · intro h
    obtain ⟨added', hadded', hown, -⟩ := h.own
    have hsame : added' = added := List.append_cancel_left (hadded'.symm.trans hsessions)
    obtain ⟨user, huser, hid'⟩ := hown row (by rw [hsame, hsplit]; exact .head _)
    have hnew := List.append_cancel_left (huser.symm.trans (husers.trans withUser_users))
    cases hnew
    exact (hadded.row hrow).symm.trans hid'
  · intro hfirst
    refine ⟨⟨added, hsessions, fun s hs => ⟨_, husers.trans withUser_users, (hall s hs).trans hfirst⟩, ?_⟩, ?_⟩
    · intro h' token hok htoken
      obtain ⟨row', hadd', ht⟩ := createAndAnswer_token (h := { h with world := w', user := u }) hh hok htoken
      refine ⟨row', ?_, ht⟩
      rw [hok] at hmore
      have hlast : more = [row'] := List.append_cancel_left (hmore.symm.trans hadd')
      rw [hsplit, hlast]
      exact .tail _ (.head _)
    · intro email' pass' hc hno
      exact absurd (hpasses email' pass' hc) hno

/-- The check does not let the password pass, and `put` goes on. -/
theorem ownOnly_denied_iff (hc : credentials env r = some (email, pass)) (hno : ¬ CheckPasses env email pass w)
    (hh : h.response.headers = baseHeaders) (hsame : h.world.db.sessions = w.db.sessions) :
    OwnOnly env r w (createAndAnswer env h) ↔ ¬ h.world.Executes 0 := by
  have hgranted := @createAndAnswer_granted env h hh
  generalize createAndAnswer env h = res at hgranted
  cases hgranted with
  | refused hexec hsame' => exact iff_of_true (ownOnly_error (hsame'.trans hsame)) hexec
  | stranded row hexec _ hadd =>
    exact iff_of_false (not_ownOnly_of_added hc hno (hadd.trans (by rw [hsame]))) (not_not_intro hexec)
  | granted row hsound hadd _ _ =>
    have hexec : h.world.Executes 0 := (hsound.mono (by omega : 0 + 1 ≤ 2)).executes
    exact iff_of_false (not_ownOnly_of_added hc hno (hadd.trans (by rw [hsame]))) (not_not_intro hexec)

end

/-! ## `put` -/

/-- The user is inserted, and the check decides. -/
theorem putSignUp_inserted_iff {email pass : Bytes} {h : Handling} {hash : Block} (hc : credentials env r = some (email, pass))
    (hworld : h.world = { w with lastInsertId := 0 }) (huser : h.user = .new env) (hh : h.response.headers = baseHeaders)
    (hp : env.pbkdf2 pass (env.random w.draws) = some hash) (hf : w.fault = none) :
    OwnOnly env r w (putSignUp env email pass h) ↔ ChecksItself env r w := by
  have hcreate : (User.new env).create env email pass h.world =
      ((User.new env).authenticate env email pass >>= fun p => pure p.2) (withUser env email hash w) := by
    rw [hworld]
    exact create_inserted (w := { w with lastInsertId := 0 }) hp hf _ _
  obtain ⟨first, hfirst⟩ := withUser_first env email hash w
  have hchecked := authenticate_checked env (.new env) email pass (withUser env email hash w)
  have hadded := @authenticate_addedFor env (.new env) email pass _ first hfirst
  have hpasses := @checkPasses_iff env w email pass hash hp hf
  rw [putSignUp_apply, huser, checksItself_iff hc hp hf hfirst, hcreate, bind_apply]
  cases hauth : (User.new env).authenticate env email pass (withUser env email hash w) with
  | error e w' =>
    rw [hauth] at hchecked
    have hno : ¬ CheckPasses env email pass w := by
      rw [hpasses, hauth]
      exact fun ⟨_, _, h⟩ => nomatch h
    cases hchecked with
    | failed htrue hfalse hsame =>
      exact iff_of_true (ownOnly_error hsame) ⟨fun hcmp he => absurd he (htrue hcmp), fun hcmp he => hfalse hcmp he.1⟩
    | stranded row hcmp he hadd =>
      refine iff_of_false (not_ownOnly_of_added hc hno hadd) fun h => ?_
      obtain ⟨u, w', hok⟩ := (authenticate_passes_iff hcmp).mpr (h.1 hcmp he).1
      exact hno (hpasses.mpr ⟨u, w', hok⟩)
  | ok p w' =>
    obtain ⟨b, u⟩ := p
    rw [hauth] at hchecked
    cases hchecked with
    | denied hcmp hf' =>
      have hno : ¬ CheckPasses env email pass w := by
        rw [hpasses, hauth]
        exact fun ⟨_, _, h⟩ => nomatch h
      have hnext := @ownOnly_denied_iff env r w email pass
        { h with world := (withUser env email hash w).next, user := .new env } hc hno hh rfl
      refine hnext.trans ⟨fun hexec => ⟨fun htrue => ?_, fun _ he => hexec he.2⟩, fun hcond he => hcond.2 hcmp ⟨hf', he⟩⟩
      cases hcmp.symm.trans htrue
    | passed row hcmp he hadd =>
      have hsound : (withUser env email hash w).Sound 4 := (authenticate_passes_iff hcmp).mp ⟨u, w', hauth⟩
      rw [hauth] at hadded
      have hiff := @ownOnly_passed_iff env r w email hash first h u w' row hh
        (fun email' pass' hc' => by
          cases hc.symm.trans hc'
          exact hpasses.mpr ⟨u, w', hauth⟩)
        hadded.1 (hadded.2 u w' rfl) hadd
      refine hiff.trans ⟨fun hid => ⟨fun _ _ => ⟨hsound, hid⟩, fun hfalse => ?_⟩, fun hcond => (hcond.1 hcmp he).2⟩
      cases hcmp.symm.trans hfalse

theorem putSignUp_own_iff {email pass : Bytes} {h : Handling} (hc : credentials env r = some (email, pass))
    (hworld : h.world = { w with lastInsertId := 0 }) (huser : h.user = .new env) (hh : h.response.headers = baseHeaders) :
    OwnOnly env r w (putSignUp env email pass h) ↔ ChecksItself env r w := by
  have hsigned := create_signedUp env (.new env) email pass h.world
  by_cases hinserted : ∃ hash, env.pbkdf2 pass (env.random w.draws) = some hash ∧ w.fault = none
  · obtain ⟨hash, hp, hf⟩ := hinserted
    exact putSignUp_inserted_iff hc hworld huser hh hp hf
  · rw [putSignUp_apply, huser]
    rw [hworld] at hsigned ⊢
    generalize (User.new env).create env email pass { w with lastInsertId := 0 } = res at hsigned
    cases hsigned with
    | failed hfault hsame =>
      refine iff_of_true (ownOnly_error hsame) fun email' pass' hash hc' hp => ?_
      cases hc.symm.trans hc'
      have hunrun (n : Nat) : ¬ w.Executes (n + 1) := fun he => hfault hash hp he.1
      exact ⟨fun _ he => absurd he (hunrun 2), fun _ => hunrun 1⟩
    | error hp hf _ => exact absurd ⟨_, hp, hf⟩ hinserted
    | ok hp hf _ => exact absurd ⟨_, hp, hf⟩ hinserted

/-- **A sign-up keeps to its own user exactly when**, once the user is inserted,
the check is of that user and is answered if it lets the password pass and
inserts a session, and no session is inserted after it if it does not. -/
theorem signUp_own_iff (env : Env) (r : HttpRequest) (w : World) :
    OwnOnly env r w ((authHandler env).put r ((authHandler env).construct env w)) ↔ ChecksItself env r w := by
  show OwnOnly env r w (authPut env r ((authHandler env).construct env w)) ↔ _
  rw [authPut_eq]
  rcases @withCredentials_cases env r ((authHandler env).construct env w) (putSignUp env) rfl with
    ⟨hc, e, h, hread, he⟩ | ⟨email, pass, h, hc, hread, heq⟩
  · rw [he]
    refine iff_of_true (ownOnly_error (by rw [hread.1]; rfl)) fun email pass hash hc' => ?_
    rw [hc] at hc'
    cases hc'
  · obtain ⟨hworld, huser, hresponse⟩ := hread
    rw [heq]
    exact putSignUp_own_iff hc hworld huser (by rw [hresponse]; rfl)

/-- Every body sends one address and one password. -/
def signUpEnv : Env :=
  { plainEnv with
    parse := fun _ => .ok (jsonify [(text "email", .string (text "a@b")), (text "password", .string (text "secret"))]) }

def signUp : HttpRequest where
  verb := .put
  path := text "/auth"
  urlParams := []
  contentType := text "application/json"
  files := []
  body := text "\x7b\"email\":\"a@b\",\"password\":\"secret\"\x7d"

/-- The address is taken, by a user with that password. -/
def taken : World where
  db := {
    users := [{ id := 1, email := text "a@b", hash := repeated 1, nacl := repeated 0 }]
    nextUser := 2 }

/-- The new user has the id 2, and both sessions are the other's. -/
theorem signUp_as_another :
    (left ((authHandler signUpEnv).put signUp ((authHandler signUpEnv).construct signUpEnv taken))).world.db.users.map
        (·.id) = [1, 2] ∧
      (left ((authHandler signUpEnv).put signUp ((authHandler signUpEnv).construct signUpEnv taken))).world.db.sessions.map
        (·.userId) = [1, 1] ∧
        ¬ OwnOnly signUpEnv signUp taken
          ((authHandler signUpEnv).put signUp ((authHandler signUpEnv).construct signUpEnv taken)) := by
  have husers : (left ((authHandler signUpEnv).put signUp
      ((authHandler signUpEnv).construct signUpEnv taken))).world.db.users.map (·.id) = [1, 2] := by
    decide +kernel
  have hsessions : (left ((authHandler signUpEnv).put signUp
      ((authHandler signUpEnv).construct signUpEnv taken))).world.db.sessions.map (·.userId) = [1, 1] := by
    decide +kernel
  refine ⟨husers, hsessions, fun h => ?_⟩
  obtain ⟨added, hadded, hown, -⟩ := h.own
  have howners : added.map (·.userId) = [1, 1] := by
    rw [hadded] at hsessions
    exact hsessions
  obtain ⟨s, hs, hone⟩ := List.mem_map.mp (by rw [howners]; exact .head _ : (1 : Int) ∈ added.map (·.userId))
  obtain ⟨user, huser, hid⟩ := hown s hs
  rw [huser, List.map_append] at husers
  have htwo : user.id = 2 := by simpa [taken] using husers
  omega

end AudioToolApi
