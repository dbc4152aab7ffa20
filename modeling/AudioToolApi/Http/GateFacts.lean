/-
The authentication gate: what `user_model::fill_by_token` comes to for a
token (`Lookup`), and what the gate makes of it.
-/
import AudioToolApi.Http.Process
import AudioToolApi.Utilities.DatabaseFacts

namespace AudioToolApi

open Effects

/-! ## The look-up -/

/-- The first live session with this token, and its user. -/
def tokenOwner (token : Bytes) (w : World) : Option (SessionRow × UserRow) :=
  (liveSessions token w).head?.bind fun row =>
    (w.db.users.filter (·.id = row.userId)).head?.map fun owner => (row, owner)

/-- The user, as `fill_by_token` fills it in. -/
def sessionUser (token : Bytes) (row : SessionRow) (owner : UserRow) : User where
  id := row.userId
  emailAddress := owner.email
  currentSession := { created := row.created, expires := row.expires, userId := row.userId, token }

/-- The statement ends, and what the driver says of it is UTF-8. -/
def Fault.Told : Fault → Prop
  | .refused what | .lost what => Utf8 what
  | .hung => False

/-- If the look-up fails on a statement, the driver says so, in UTF-8: the
first statement, or the second where a session is found. -/
def LookupTold (token : Bytes) (w : World) : Prop :=
  (∀ f, w.fault = some f → f.Told) ∧
    (w.fault = none → liveSessions token w ≠ [] → ∀ f, w.next.fault = some f → f.Told)

/-- What the look-up comes to. -/
inductive Lookup (token : Bytes) (w : World) : EStateM.Result Exn World User → Prop
  | found {row owner} : w.Sound 2 → tokenOwner token w = some (row, owner) →
      Lookup token w (.ok (sessionUser token row owner) w.next.next)
  | failed {what w'} : ¬ (w.Sound 2 ∧ (tokenOwner token w).isSome) → (LookupTold token w ↔ Utf8 what) →
      w'.settled = w.settled →
      Lookup token w (.error (.runtime what) w')
  | hung {w'} : ¬ LookupTold token w → Lookup token w (.error .gone w')

/-- A `SELECT` that the driver does not take. -/
theorem select_fault {α : Type} {rows : World → List α} {w : World} {f : Fault} (h : w.fault = some f) :
    (∃ what, select rows w = .error (.runtime what) w.next ∧ (f.Told ↔ Utf8 what)) ∨
      select rows w = .error .gone w.next ∧ ¬ f.Told := by
  rw [select, statement, h]
  cases f with
  | refused what | lost what => exact .inl ⟨what, rfl, Iff.rfl⟩
  | hung => exact .inr ⟨rfl, id⟩

theorem tokenOwner_nil {token : Bytes} {w : World} (h : liveSessions token w = []) : tokenOwner token w = none := by
  rw [tokenOwner, h]
  rfl

theorem tokenOwner_cons {token : Bytes} {w : World} {row : SessionRow} {rest : List SessionRow}
    (h : liveSessions token w = row :: rest) :
    tokenOwner token w = (w.db.users.filter (·.id = row.userId)).head?.map fun owner => (row, owner) := by
  rw [tokenOwner, h]
  rfl

theorem LookupTold.of_sound {token : Bytes} {w : World} (h : w.Sound 2) : LookupTold token w := by
  obtain ⟨h1, h⟩ := World.sound_succ.mp h
  obtain ⟨h2, -⟩ := World.sound_succ.mp h
  simp [LookupTold, h1, h2]

/-- The look-up ends with the statement that the driver does not take. -/
theorem Lookup.of_fault {token : Bytes} {α : Type} {rows : World → List α} {k : List α → Act User} {w v : World}
    {f : Fault} (hf : v.fault = some f) (hns : ¬ w.Sound 2) (htold : LookupTold token w ↔ f.Told)
    (hv : v.settled = w.settled) : Lookup token w ((select rows >>= k) v) := by
  rcases select_fault hf with ⟨what, hsel, hwhat⟩ | ⟨hsel, hwhat⟩
  · rw [bind_error hsel]
    exact .failed (fun h => hns h.1) (htold.trans hwhat) hv
  · rw [bind_error hsel]
    exact .hung (mt htold.mp hwhat)

theorem fillByToken_lookup (u : User) (token : Bytes) (w : World) : Lookup token w (u.fillByToken token w) := by
  rw [User.fillByToken]
  cases hf : w.fault with
  | some f =>
    have hns : ¬ w.Sound 2 := by simp [World.sound_succ, hf]
    exact .of_fault hf hns (by simp [LookupTold, hf]) rfl
  | none =>
    rw [bind_ok (select_ok hf)]
    cases hl : liveSessions token w with
    | nil =>
      have hl' : liveSessions token w.next = [] := hl
      have htext : Utf8 (text "No user by that token") := by decide
      have hns : ¬ (w.Sound 2 ∧ (tokenOwner token w).isSome) := by simp [tokenOwner_nil hl]
      rw [hl']
      exact .failed hns (iff_of_true ⟨by simp [hf], fun _ h => absurd hl h⟩ htext) rfl
    | cons row rest =>
      have hl' : liveSessions token w.next = row :: rest := hl
      have howner := tokenOwner_cons hl
      rw [hl', bind_ok (rfl : firstRow _ (row :: rest) w.next = .ok row w.next), User.fillById, bind_assoc]
      cases hf' : w.next.fault with
      | some f =>
        have hns : ¬ w.Sound 2 := by simp [World.sound_succ, hf']
        exact .of_fault hf' hns (by simp [LookupTold, hf, hf', hl]) rfl
      | none =>
        have hsound : w.Sound 2 := World.sound_succ.mpr ⟨hf, World.sound_succ.mpr ⟨hf', World.sound_zero⟩⟩
        rw [bind_ok (select_ok hf')]
        cases hu : w.db.users.filter (·.id = row.userId) with
        | nil =>
          have hu' : w.next.next.db.users.filter (·.id = row.userId) = [] := hu
          have htext : Utf8 noUser := by decide +kernel
          have hns : ¬ (w.Sound 2 ∧ (tokenOwner token w).isSome) := by simp [howner, hu]
          rw [hu']
          exact .failed hns (iff_of_true ⟨by simp [hf], fun _ _ => by simp [hf']⟩ htext) rfl
        | cons owner others =>
          have hu' : w.next.next.db.users.filter (·.id = row.userId) = owner :: others := hu
          rw [hu']
          exact .found hsound (by rw [howner, hu]; rfl)

/-! ## The gate -/

/-- The world after the refresh, which may fail. -/
def refreshed (token : Bytes) (userId : Int) (w : World) : World :=
  match w.fault with
  | some (.refused _) => w.next
  | _ => refreshSessions token userId w.next

/-- The other tables are left as they are. -/
theorem refreshed_db (token : Bytes) (userId : Int) (w : World) :
    (refreshed token userId w).db = { w.db with sessions := (refreshed token userId w).db.sessions } := by
  rw [refreshed]
  split <;> rfl

/-- The handler, once the gate lets a request through. -/
def admitted (token : Bytes) (row : SessionRow) (owner : UserRow) (h : Handling) : Handling :=
  { h with user := sessionUser token row owner, world := refreshed token row.userId h.world.next.next }

/-- The statements of the gate end, and if the look-up fails on one, the
driver says so in UTF-8. -/
def GateTold (token : Bytes) (w : World) : Prop :=
  LookupTold token w ∧ (w.Sound 2 → (tokenOwner token w).isSome → w.next.next.fault ≠ some .hung)

theorem GateTold.of_sound {token : Bytes} {w : World} (h : w.Sound 3) : GateTold token w := by
  have hnext := (World.sound_succ.mp (World.sound_succ.mp h).2).2
  refine ⟨.of_sound (h.mono (by omega)), fun _ _ => ?_⟩
  simp [(World.sound_succ.mp hnext).1]

/-- What the gate makes of a token. -/
inductive Gate (token : Bytes) (s : Serving) : EStateM.Result Exn Serving Bool → Prop
  | passed {row owner} : s.handling.world.Sound 2 → tokenOwner token s.handling.world = some (row, owner) →
      GateTold token s.handling.world → Gate token s (.ok true { s with handling := admitted token row owner s.handling })
  | refused {what w} : ¬ (s.handling.world.Sound 2 ∧ (tokenOwner token s.handling.world).isSome) →
      (GateTold token s.handling.world ↔ Utf8 what) → w.settled = s.handling.world.settled →
      Gate token s (unauthorized (text "Unauthorized: " ++ what) { s with handling := { s.handling with world := w } })
  | hung {t} : ¬ GateTold token s.handling.world → Gate token s (.error .gone t)

theorem catchRuntime_ok {σ α : Type} {x : EStateM Exn σ α} {f : Bytes → EStateM Exn σ α} {s t : σ} {a : α}
    (h : x s = .ok a t) : catchRuntime x f s = .ok a t := by
  rw [catchRuntime, h]

theorem catchRuntime_runtime {σ α : Type} {x : EStateM Exn σ α} {f : Bytes → EStateM Exn σ α} {s t : σ} {what : Bytes}
    (h : x s = .error (.runtime what) t) : catchRuntime x f s = f what t := by
  rw [catchRuntime, h]

theorem catchRuntime_gone {σ α : Type} {x : EStateM Exn σ α} {f : Bytes → EStateM Exn σ α} {s t : σ}
    (h : x s = .error .gone t) : catchRuntime x f s = .error .gone t := by
  rw [catchRuntime, h]

/-- What returns has returned, or has been caught. -/
theorem catchRuntime_returned {σ α : Type} {x : EStateM Exn σ α} {f : Bytes → EStateM Exn σ α} {s t : σ} {a : α}
    (h : catchRuntime x f s = .ok a t) : x s = .ok a t ∨ ∃ e t' what, x s = .error e t' ∧ f what t' = .ok a t := by
  rw [catchRuntime] at h
  cases hx : x s with
  | ok b t' =>
    rw [hx] at h
    exact .inl h
  | error e t' =>
    rw [hx] at h
    cases e with
    | http code what | runtime what => exact .inr ⟨_, t', what, rfl, h⟩
    | std what | other | gone => cases h

theorem inHandler_ok {α : Type} {x : Act α} {s : Serving} {a : α} {w : World} (h : x s.handling.world = .ok a w) :
    inHandler (inWorld x) s = .ok a { s with handling := { s.handling with world := w } } := by
  simp only [inHandler, inWorld, h]

theorem inHandler_error {α : Type} {x : Act α} {s : Serving} {e : Exn} {w : World}
    (h : x s.handling.world = .error e w) :
    inHandler (inWorld x) s = .error e { s with handling := { s.handling with world := w } } := by
  simp only [inHandler, inWorld, h]

theorem refresh_apply (u : User) (w : World) :
    (w.fault = some .hung ∧ u.refreshSession w = .error .gone w.next) ∨
      w.fault ≠ some .hung ∧ ((∃ what, u.refreshSession w =
          .error (.runtime what) (refreshed u.currentSession.token u.currentSession.userId w)) ∨
        u.refreshSession w = .ok () (refreshed u.currentSession.token u.currentSession.userId w)) := by
  rw [User.refreshSession, Session.refresh, execute, statement, refreshed]
  cases h : w.fault with
  | none => exact .inr ⟨by simp, .inr rfl⟩
  | some f =>
    cases f with
    | refused what | lost what => exact .inr ⟨by simp, .inl ⟨what, rfl⟩⟩
    | hung => exact .inl ⟨rfl, rfl⟩

theorem lookUp_ok {token : Bytes} {s : Serving} {user : User} {w : World}
    (h : s.handling.user.fillByToken token s.handling.world = .ok user w) :
    lookUp token s = .ok (.ok user) { s with handling := { s.handling with world := w } } :=
  catchRuntime_ok (bind_ok (inHandler_ok h))

theorem lookUp_runtime {token : Bytes} {s : Serving} {what : Bytes} {w : World}
    (h : s.handling.user.fillByToken token s.handling.world = .error (.runtime what) w) :
    lookUp token s = .ok (.error what) { s with handling := { s.handling with world := w } } :=
  catchRuntime_runtime (bind_error (inHandler_error h))

theorem lookUp_gone {token : Bytes} {s : Serving} {w : World}
    (h : s.handling.user.fillByToken token s.handling.world = .error .gone w) :
    lookUp token s = .error .gone { s with handling := { s.handling with world := w } } :=
  catchRuntime_gone (bind_error (inHandler_error h))

/-- The gate, past the question whether there is a token. -/
theorem gate_token {req : Request} {token : Bytes} (h : req.find (text "session-token") = some token) :
    gate req = lookUp token >>= fun
      | .error what => unauthorized (text "Unauthorized: " ++ what)
      | .ok user => letIn user := by
  unfold gate
  generalize req.find (text "session-token") = found at h ⊢
  subst h
  rfl

theorem letIn_ok {u : User} {s : Serving} (h : s.handling.world.fault ≠ some .hung) :
    letIn u s = .ok true { s with handling := { s.handling with
      user := u, world := refreshed u.currentSession.token u.currentSession.userId s.handling.world } } := by
  let filled : Serving := { s with handling := { s.handling with user := u } }
  rcases refresh_apply u filled.handling.world with ⟨hh, -⟩ | ⟨-, ⟨what, hr⟩ | hr⟩
  · exact absurd hh h
  · exact bind_ok (s := filled) (catchRuntime_runtime (inHandler_error hr))
  · exact bind_ok (s := filled) (catchRuntime_ok (inHandler_ok hr))

theorem letIn_hung {u : User} {s : Serving} (h : s.handling.world.fault = some .hung) :
    ∃ t, letIn u s = .error .gone t := by
  let filled : Serving := { s with handling := { s.handling with user := u } }
  rcases refresh_apply u filled.handling.world with ⟨-, hr⟩ | ⟨hh, -⟩
  · exact ⟨_, bind_error (s := filled) (catchRuntime_gone (inHandler_error hr))⟩
  · exact absurd h hh

theorem gate_gate {req : Request} {token : Bytes} (h : req.find (text "session-token") = some token) (s : Serving) :
    Gate token s (gate req s) := by
  have hlookup := fillByToken_lookup s.handling.user token s.handling.world
  rw [gate_token h]
  cases hr : s.handling.user.fillByToken token s.handling.world with
  | error e w =>
    rw [hr] at hlookup
    cases hlookup with
    | failed hns htold hdb =>
      rw [bind_ok (lookUp_runtime hr)]
      refine .refused hns ?_ hdb
      rw [GateTold, htold, and_iff_left]
      exact fun hs ho => absurd ⟨hs, ho⟩ hns
    | hung htold =>
      rw [bind_error (lookUp_gone hr)]
      exact .hung fun ht => htold ht.1
  | ok user w =>
    rw [hr] at hlookup
    cases hlookup with
    | @found row owner hs ho =>
      let found : Serving := { s with handling := { s.handling with world := s.handling.world.next.next } }
      by_cases hf : s.handling.world.next.next.fault = some .hung
      · obtain ⟨t, ht⟩ := letIn_hung (u := sessionUser token row owner) (s := found) hf
        rw [(bind_ok (lookUp_ok hr)).trans ht]
        exact .hung fun h => h.2 hs (by rw [ho]; rfl) hf
      · have hin := letIn_ok (u := sessionUser token row owner) (s := found) hf
        rw [(bind_ok (lookUp_ok hr)).trans hin]
        exact .passed hs ho ⟨.of_sound hs, fun _ _ => hf⟩

theorem unauthorized_ne_true (message : Bytes) (s t : Serving) : unauthorized message s ≠ .ok true t := by
  intro h
  obtain ⟨_, _, _, hpure⟩ := bind_ok_iff.mp h
  cases (pure_ok_iff.mp hpure).1

/-- What it takes to be let in. -/
theorem gate_passed_iff {req : Request} {s t : Serving} :
    gate req s = .ok true t ↔ ∃ token row owner, req.find (text "session-token") = some token ∧
      s.handling.world.Sound 2 ∧ tokenOwner token s.handling.world = some (row, owner) ∧
      s.handling.world.next.next.fault ≠ some .hung ∧ { s with handling := admitted token row owner s.handling } = t := by
  cases ht : req.find (text "session-token") with
  | none =>
    rw [gate, ht]
    exact iff_of_false (unauthorized_ne_true _ _ _) fun ⟨_, _, _, h, _⟩ => nomatch h
  | some token =>
    have hgate := gate_gate ht s
    generalize gate req s = result at hgate ⊢
    cases hgate with
    | @passed row owner hs ho htold =>
      constructor
      · intro h
        cases h
        exact ⟨token, row, owner, rfl, hs, ho, htold.2 hs (by rw [ho]; rfl), rfl⟩
      · intro h
        obtain ⟨_, row', owner', ⟨⟩, _, ho', _, rfl⟩ := h
        cases ho.symm.trans ho'
        rfl
    | refused hno _ _ =>
      refine iff_of_false (unauthorized_ne_true _ _ _) ?_
      intro h
      obtain ⟨_, _, _, ⟨⟩, hs, ho, _⟩ := h
      exact hno ⟨hs, by rw [ho]; rfl⟩
    | hung hno =>
      refine iff_of_false nofun ?_
      intro h
      obtain ⟨_, _, _, ⟨⟩, hs, ho, hf, _⟩ := h
      exact hno ⟨.of_sound hs, fun _ _ => hf⟩

/-- The handler as it is constructed. -/
def atGate (env : Env) (handler : Handler) (w : World) : Serving := { handling := handler.construct env w }

/-- The user as whom the gate lets a request through. -/
def passesAs (env : Env) (req : Request) (w : World) : Option Int := do
  let r ← httpRequest req
  let handler ← findRoute env (applicationRoutes env) r.path
  match gate req (atGate env handler w) with
  | .ok true s => some s.handling.user.id
  | _ => none

/-- The request is for this handler, which wants a session. -/
structure Authenticated (env : Env) (req : Request) (r : HttpRequest) (handler : Handler) : Prop where
  request : httpRequest req = some r
  route : findRoute env (applicationRoutes env) r.path = some handler
  auth : handler.requiresAuthentication = true

section

variable {env : Env} {req : Request} {r : HttpRequest} {handler : Handler}

theorem Authenticated.process_eq (hreq : Authenticated env req r handler) (w : World) :
    process env (applicationRoutes env) req w = serve env handler req r (atGate env handler w) := by
  simp only [process, hreq.request, hreq.route, atGate]

theorem serve_passed {s t : Serving} (hauth : handler.requiresAuthentication = true) (h : gate req s = .ok true t) :
    serve env handler req r s = handle env handler req r t := by
  rw [serve, if_pos hauth, bind_ok h]
  rfl

theorem serve_refused {s t : Serving} (hauth : handler.requiresAuthentication = true) (h : gate req s = .ok false t) :
    serve env handler req r s = .ok () t := by
  rw [serve, if_pos hauth, bind_ok h]
  rfl

end

end AudioToolApi
