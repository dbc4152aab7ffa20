/-
The server answers every request that sticks to the encoding. That goes for
whole runs: such requests leave only UTF-8 in the store, so the next ones are
answered too, whoever sends them (`server_answers`).
-/
import AudioToolApi.Http.RejectedBody
import AudioToolApi.Http.SpokenHandlers
import AudioToolApi.Http.Store

namespace AudioToolApi

open Effects

variable {env : Env} {strtod : Bytes → Option Double} {r : HttpRequest} {req : Request} {w : World}

/-! ## One request -/

theorem endsWell_of_spoken {x : Handle Bool} (hx : Handled env x fun _ => True) {h : Handling} (hh : h.Spoken) :
    EndsWell env (x h) := by
  have hends := hx h hh
  cases hr : x h with
  | ok known h' =>
    rw [hr] at hends
    cases known with
    | true => exact hends.1.sendable
    | false => trivial
  | error e h' =>
    rw [hr] at hends
    cases e <;> exact hends.2

theorem Handler.Spoken.construct {handler : Handler} (h : handler.Spoken env r) (hw : w.Spoken) :
    (handler.construct env w).Spoken where
  world := ⟨hw.db, hw.faults⟩
  user := Lexer.utf8_nil
  json := Json.utf8_null
  data := h.data
  status := by simp [Handler.construct]
  content := trivial

theorem gateTold_of_spoken (token : Bytes) (hw : w.Spoken) : GateTold token w := by
  refine ⟨⟨fun f hf => hw.fault hf, fun _ _ f hf => hw.next.fault hf⟩, fun _ _ hf => ?_⟩
  exact hw.next.next.fault hf

theorem refreshed_spoken (token : Bytes) (userId : Int) (hw : w.Spoken) : (refreshed token userId w).Spoken := by
  unfold refreshed
  split
  · exact hw.next
  · exact ⟨⟨hw.db.users, hw.db.files, hw.db.projects⟩, hw.next.faults⟩

/-- The gate sets the user, as the table has it. -/
theorem admitted_spoken {token : Bytes} {row : SessionRow} {owner : UserRow} {h : Handling} (hh : h.Spoken)
    (howner : tokenOwner token h.world = some (row, owner)) : (admitted token row owner h).Spoken := by
  have huser : Utf8 owner.email := by
    rw [tokenOwner] at howner
    obtain ⟨row', -, howner⟩ := Option.bind_eq_some_iff.mp howner
    obtain ⟨owner', hhead, heq⟩ := Option.map_eq_some_iff.mp howner
    cases heq
    exact hh.world.db.users owner (List.mem_of_mem_filter (List.mem_of_mem_head? hhead))
  exact { hh with world := refreshed_spoken _ _ hh.world.next.next, user := huser }

theorem process_answers (henv : env.Spoken strtod) (hreq : req.Spoken env) (hw : w.Spoken) :
    AnsweredOnce (process env (applicationRoutes env) req w) := by
  refine (answeredOnce_iff ..).mpr fun r hparsed handler hroute => ?_
  have hhandler := routes_say henv (hreq.parsed hparsed) hroute
  have hstart := hhandler.construct hw
  unfold AnswerableBy
  split
  · intro token _
    refine ⟨gateTold_of_spoken token hstart.world, fun row owner _ howner => ?_⟩
    exact endsWell_of_spoken hhandler.run (admitted_spoken hstart howner)
  · exact endsWell_of_spoken hhandler.run hstart

/-! ## What it leaves -/

theorem inHandler_spoken {α : Type} {x : Handle α} {Q : α → Prop} (hx : Handled env x Q) :
    Says (Within Handling.Spoken) (Exn.Told env) (inHandler x) Q := by
  intro s hs
  have hends := hx s.handling hs
  rw [inHandler]
  cases hr : x s.handling with
  | ok a h =>
    rw [hr] at hends
    exact hends
  | error e h =>
    rw [hr] at hends
    exact hends

theorem lookUp_spoken (token : Bytes) : Says (Within Handling.Spoken) (Exn.Told env) (lookUp token)
    fun found => ∀ user, found = .ok user → Utf8 user.emailAddress := by
  refine Says.bind (Q := fun _ => True) (fun s hs => ⟨hs, trivial⟩) fun s _ => ?_
  refine catchRuntime_spoken ?_ fun what => Says.pure (by simp)
  refine (inHandler_spoken (inWorld_spoken (fillByToken_spoken _ token))).bind fun user huser => Says.pure ?_
  rintro _ ⟨⟩
  exact huser

theorem letIn_spoken {user : User} (huser : Utf8 user.emailAddress) :
    Says (Within Handling.Spoken) (Exn.Told env) (letIn user) fun _ => True := by
  have hset : Says (Within Handling.Spoken) (Exn.Told env)
      (modify fun s => { s with handling := { s.handling with user } } : Serve Unit) fun _ => True :=
    Says.modify fun _ hs => { hs with user := huser }
  have hrefresh : Says (Within Handling.Spoken) (Exn.Told env) (inHandler (inWorld user.refreshSession)) fun _ => True :=
    inHandler_spoken (inWorld_spoken (refreshSession_spoken user))
  refine hset.bind fun _ _ => (catchRuntime_spoken hrefresh fun _ => Says.pure trivial).bind fun _ _ => Says.pure trivial

theorem gate_spoken (req : Request) : Keeps (Within Handling.Spoken) (gate req) fun _ _ => True := by
  unfold gate
  split
  · exact buildFalse_keeps _ _
  · rename_i token _
    refine (@lookUp_spoken plainEnv token).keeps.bind fun found => ?_
    cases found with
    | error what => exact Triple.pre (buildFalse_keeps _ _) fun _ hs => hs.1
    | ok user =>
      intro s hs
      exact (@letIn_spoken plainEnv user (hs.2 user rfl)).keeps s hs.1

theorem serve_spoken {handler : Handler} (req : Request) (h : handler.Spoken env r) :
    Keeps (Within Handling.Spoken) (serve env handler req r) fun _ _ => True := by
  have hrest (passed : Bool) :
      Keeps (Within Handling.Spoken) (if passed then handle env handler req r else pure ()) fun _ _ => True := by
    cases passed with
    | true => exact handled_keeps req h.run.keeps
    | false => exact Keeps.pure fun _ _ => trivial
  unfold serve
  split
  · exact (gate_spoken req).bind fun passed => Triple.pre (hrest passed) fun _ hs => hs.1
  · exact hrest true

theorem process_spoken (henv : env.Spoken strtod) (hreq : req.Spoken env) (hw : w.Spoken) :
    (left (process env (applicationRoutes env) req w)).handling.world.db.Spoken := by
  rw [process]
  cases hparsed : httpRequest req with
  | none => exact hw.db
  | some r =>
    dsimp only
    cases hroute : findRoute env (applicationRoutes env) r.path with
    | none =>
      exact (buildError_keeps (J := fun h => h.world.db.Spoken) 404 (text "Route not found")).left
        (s := { handling := baseHandler.construct env w }) hw.db
    | some handler =>
      have hhandler := routes_say henv (hreq.parsed hparsed) hroute
      exact ((serve_spoken req hhandler).left (s := { handling := handler.construct env w }) (hhandler.construct hw)).world.db

/-! ## Runs -/

/-- A request that sticks to the encoding, and a driver that does. -/
def ServerEvent.Spoken (env : Env) : ServerEvent → Prop
  | .tick _ => True
  | .request req faults => req.Spoken env ∧ ∀ f, some f ∈ faults → f.Told

theorem ServerEvent.Spoken.step (henv : env.Spoken strtod) {event : ServerEvent} (hevent : event.Spoken env)
    (hw : w.db.Spoken) : (event.step env w).db.Spoken := by
  cases event with
  | tick seconds => exact hw
  | request req faults => exact process_spoken henv hevent.1 ⟨hw, hevent.2⟩

theorem serverRun_spoken (henv : env.Spoken strtod) {events : List ServerEvent}
    (hevents : ∀ event ∈ events, event.Spoken env) : ∀ {w : World}, w.db.Spoken → (serverRun env w events).db.Spoken := by
  induction events with
  | nil => exact fun hw => hw
  | cons event events ih =>
    obtain ⟨hevent, hevents⟩ := List.forall_mem_cons.mp hevents
    exact fun hw => ih hevents (hevent.step henv hw)

/-- **The server always answers**: after any run of requests that stick to the
encoding, each further one gets exactly one response, whatever the driver
refuses or loses. -/
theorem server_answers (henv : env.Spoken strtod) (hw : w.db.Spoken) {events : List ServerEvent}
    (hevents : ∀ event ∈ events, event.Spoken env) {faults : List (Option Fault)}
    (hreq : (ServerEvent.request req faults).Spoken env) :
    AnsweredOnce (process env (applicationRoutes env) req { serverRun env w events with faults }) :=
  process_answers henv hreq.1 ⟨serverRun_spoken henv hevents hw, hreq.2⟩

theorem parsingEnv_spoken : parsingEnv.Spoken fun _ => none where
  parse := rfl
  uuid k := (decimal_ascii k).utf8
  tokenReply _ _ _ := ascii_nil
  peopleReply _ _ _ := ascii_nil
  badRequest := rfl
  forbidden := rfl

/-- `POST /auth` with the body `no`. -/
def slipLogin : Request := { accentLogin with body := text "no" }

theorem slipLogin_spoken : slipLogin.Spoken parsingEnv where
  target := by decide
  body _ _ _ _ := by decide
  audio _ _ _ _ := by simp [parsingEnv, plainEnv]

/-- A slip, while the driver refuses the next statement, and another one. -/
theorem slipLogin_answered :
    AnsweredOnce (process parsingEnv (applicationRoutes parsingEnv) slipLogin
      { serverRun parsingEnv {} [.request slipLogin [some (.refused (text "deadlock"))], .tick 5] with faults := [] }) := by
  refine server_answers parsingEnv_spoken ⟨by simp, by simp, by simp⟩ ?_ ⟨slipLogin_spoken, by simp⟩
  have hrefused : ∀ f, some f ∈ [some (Fault.refused (text "deadlock"))] → f.Told := by
    intro f hf
    cases List.mem_singleton.mp hf
    exact utf8_text _
  exact List.forall_mem_cons.mpr ⟨⟨slipLogin_spoken, hrefused⟩, List.forall_mem_singleton.mpr trivial⟩

end AudioToolApi
