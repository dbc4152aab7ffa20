/-
Requests to the routes that want a session, made without one: with no token,
or with one of which there is no live session. What they are answered, and
that the tables are left alone, does not depend on what the tables hold.
-/
import AudioToolApi.Http.GateFacts
import AudioToolApi.Http.Isolation
import AudioToolApi.Http.RouteFootprint

namespace AudioToolApi

open Effects

/-- The request has no token, or one of which there is no live session. -/
def Outsider (req : Request) (w : World) : Prop :=
  ∀ token, req.find (text "session-token") = some token → liveSessions token w = []

/-- Two worlds in which the request is an outsider's, and in which the driver
does the same. The first is that of `db`. -/
structure Outside (req : Request) (db : Tables) (w v : World) : Prop where
  faults : w.faults = v.faults
  db : w.db = db
  left : Outsider req w
  right : Outsider req v

theorem outside_driven (req : Request) (db : Tables) : Driven (Outside req db) where
  fault w v h := by rw [World.fault, World.fault, h.faults]
  next w v h := ⟨by rw [World.next, World.next, h.faults], h.db, h.left, h.right⟩

/-- Two servings that have written the same, for the same user, in such
worlds. -/
structure Rebuffed (req : Request) (db : Tables) (s t : Serving) : Prop where
  world : Outside req db s.handling.world t.handling.world
  user : s.handling.user = t.handling.user
  written : s.written = t.written

variable {env : Env} {req : Request} {db : Tables}

theorem unauthorized_rebuffs (message : Bytes) :
    Alike (Rebuffed req db) (unauthorized message) fun passed => passed = false := by
  refine .bind (P := fun _ => True) (.bind (orThrow_alike _) fun body _ => .bind (preparePayload_alike _ _) fun _ _ => ?_)
    fun _ _ => .pure rfl
  exact .modify fun s t h => ⟨h.world, h.user, by rw [h.written]⟩

/-- No user is found. -/
theorem fillByToken_outside {token : Bytes} (htoken : req.find (text "session-token") = some token) (u : User) :
    Alike (Outside req db) (u.fillByToken token) fun _ => False := by
  have hselect : Alike (Outside req db) (select (liveSessions token)) fun rows => rows = [] := by
    intro w v h
    have hnext := (outside_driven req db).next w v h
    rw [select, statement, statement, ← (outside_driven req db).fault w v h]
    cases w.fault with
    | none =>
      rw [hnext.left token htoken, hnext.right token htoken]
      exact .ok rfl hnext
    | some f => cases f <;> exact .error hnext
  refine .bind hselect fun rows hrows => ?_
  subst hrows
  exact .bind (P := fun _ => False) (.throw _) fun _ h => h.elim

theorem lookUp_outside {token : Bytes} (htoken : req.find (text "session-token") = some token) :
    Alike (Rebuffed req db) (lookUp token) fun found => ∃ what, found = .error what := by
  intro s t h
  have hfill := fillByToken_outside htoken s.handling.user _ _ h.world
  have hinner : Same (Rebuffed req db) (fun _ => False)
      (inHandler (inWorld (s.handling.user.fillByToken token)) s)
      (inHandler (inWorld (t.handling.user.fillByToken token)) t) := by
    rw [← h.user, inHandler, inHandler, inWorld, inWorld]
    generalize s.handling.user.fillByToken token s.handling.world = x at hfill ⊢
    generalize s.handling.user.fillByToken token t.handling.world = y at hfill ⊢
    cases hfill with
    | ok hno _ => exact hno.elim
    | error hworld => exact .error ⟨hworld, h.user, h.written⟩
  show Same _ _ (catchRuntime _ _ s) (catchRuntime _ _ t)
  rw [catchRuntime, catchRuntime, bind_apply, bind_apply]
  generalize inHandler (inWorld (s.handling.user.fillByToken token)) s = x at hinner ⊢
  generalize inHandler (inWorld (t.handling.user.fillByToken token)) t = y at hinner ⊢
  cases hinner with
  | ok hno _ => exact hno.elim
  | @error e _ _ hst =>
    cases e with
    | http code what | runtime what => exact .ok ⟨what, rfl⟩ hst
    | std what | other | gone => exact .error hst

theorem gate_outside : Alike (Rebuffed req db) (gate req) fun passed => passed = false := by
  cases ht : req.find (text "session-token") with
  | none =>
    unfold gate
    rw [ht]
    exact unauthorized_rebuffs _
  | some token =>
    rw [gate_token ht]
    refine .bind (lookUp_outside ht) fun found hfound => ?_
    obtain ⟨what, rfl⟩ := hfound
    exact unauthorized_rebuffs _

/-- **An outsider learns nothing, and changes nothing**: on a route that wants
a session, the answer is the same whatever is in the tables, and they are
left as they are. -/
theorem outsider_learns_nothing {r : HttpRequest} {handler : Handler} (hreq : Authenticated env req r handler)
    {w v : World} (hw : Outsider req w) (hv : Outsider req v) (hfaults : w.faults = v.faults) :
    (left (process env (applicationRoutes env) req w)).written =
        (left (process env (applicationRoutes env) req v)).written ∧
      (left (process env (applicationRoutes env) req w)).handling.world.db = w.db := by
  have hstart : Rebuffed req w.db (atGate env handler w) (atGate env handler v) :=
    ⟨⟨hfaults, rfl, hw, hv⟩, rfl, rfl⟩
  have hserve : Alike (Rebuffed req w.db) (serve env handler req r) fun _ => True := by
    rw [serve, if_pos hreq.auth]
    refine .bind gate_outside fun passed hpassed => ?_
    subst hpassed
    exact .pure trivial
  have hsame := (hserve _ _ hstart).left
  rw [hreq.process_eq, hreq.process_eq]
  exact ⟨hsame.written, hsame.world.db⟩

/-- A token of which there was never a session. -/
theorem stranger_learns_nothing :
    (left (process sampleEnv (applicationRoutes sampleEnv) getProject {})).written =
        (left (process sampleEnv (applicationRoutes sampleEnv) getProject { twoUsers with now := 3600 })).written ∧
      (left (process sampleEnv (applicationRoutes sampleEnv) getProject {})).handling.world.db = {} := by
  have hreq : ∃ r, Authenticated sampleEnv getProject r (projectHandler sampleEnv) :=
    ⟨{ verb := .get, path := text "/project", urlParams := [(text "guid", text "g")]
       contentType := text "application/json", files := [], body := [] }, by decide, rfl, rfl⟩
  obtain ⟨r, hreq⟩ := hreq
  refine outsider_learns_nothing hreq (fun _ _ => rfl) ?_ rfl
  intro token htoken
  have hfind : getProject.find (text "session-token") = some (text "t") := by decide
  rw [hfind] at htoken
  cases htoken
  decide

end AudioToolApi
