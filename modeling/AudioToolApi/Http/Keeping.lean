/-
Invariants of the world that `process` keeps: whatever the request, and
whatever becomes of its statements, what the models keep is kept. The user
of a handler is one that there is, or has the `id` that was never set.
-/
import AudioToolApi.Http.AuthFacts
import AudioToolApi.Http.GateFacts
import AudioToolApi.Http.RouteFootprint
import AudioToolApi.Models.Keeping

namespace AudioToolApi

open Effects

variable {env : Env} {I : World → Prop} {α : Type}

/-! ## The handler of `/auth` -/

def Owned (env : Env) (I : World → Prop) (h : Handling) : Prop := I h.world ∧ HasOwner env h.user.id h.world

/-- A method that sets something in the response. -/
theorem respond_keeps (g : Handling → Handling) (hw : ∀ h, (g h).world = h.world) (hu : ∀ h, (g h).user = h.user) :
    Keeps (Owned env I) (modify g : Handle Unit) fun _ _ => True := by
  refine Keeps.modify fun h hh => ?_
  rw [Owned, hw, hu]
  exact hh

theorem setContent_keeps (c : Content) : Keeps (Owned env I) (setContent c) fun _ _ => True :=
  respond_keeps _ (fun _ => rfl) fun _ => rfl

theorem setStatus_keeps (status : Int) : Keeps (Owned env I) (setStatus status) fun _ _ => True :=
  respond_keeps _ (fun _ => rfl) fun _ => rfl

theorem emplaceHeader_keeps (name value : Bytes) : Keeps (Owned env I) (emplaceHeader name value) fun _ _ => True :=
  respond_keeps _ (fun _ => rfl) fun _ => rfl

theorem notFound_keeps : Keeps (Owned env I) notFound fun _ _ => True :=
  (setContent_keeps _).bind fun _ => (setStatus_keeps _).pre fun _ hh => hh.1

theorem member_keeps (p : Handling → α) : Keeps (Owned env I) (member p) fun a h => p h = a := fun _ hh => ⟨hh, rfl⟩

theorem orThrow_keeps {σ : Type} {J : σ → Prop} (x : Except Bytes α) : Keeps J (orThrow x) fun _ _ => True := by
  cases x with
  | ok a => exact Keeps.pure fun _ _ => trivial
  | error what => exact Keeps.throw _

theorem parseJson_keeps (r : HttpRequest) : Keeps (Owned env I) (parseJson env r) fun _ _ => True := by
  rw [parseJson]
  split
  · refine (orThrow_keeps _).bind fun j => Triple.pre (P := Owned env I) ?_ fun _ hh => hh.1
    refine Keeps.bind (respond_keeps (fun h => { h with json := j }) (fun _ => rfl) fun _ => rfl) fun _ =>
      Triple.pre (P := Owned env I) ?_ fun _ hh => hh.1
    exact (member_keeps _).weak
  · exact (member_keeps _).weak

theorem jsonString_keeps (j : Json) (key : Bytes) : Keeps (Owned env I) (jsonString j key) fun _ _ => True :=
  (orThrow_keeps _).bind fun _ => (orThrow_keeps _).pre fun _ hh => hh.1

/-- A call of a model, for the user of the handler. -/
theorem inWorld_keeps {x : Act α} {u : User} {Q : α → World → Prop}
    (hx : Keeps (fun w => I w ∧ HasOwner env u.id w) x Q) :
    Triple (fun h => Owned env I h ∧ u = h.user) (inWorld x) (fun a h => Owned env I h ∧ Q a h.world)
      fun _ h => Owned env I h := by
  intro h hh
  obtain ⟨hh, rfl⟩ := hh
  have hends := hx h.world hh
  rw [inWorld]
  cases hr : x h.world with
  | ok a w =>
    rw [hr] at hends
    exact hends
  | error e w =>
    rw [hr] at hends
    exact hends

theorem setUser_keeps (user : User) :
    Triple (fun h => Owned env I h ∧ HasOwner env user.id h.world) (modify fun h => { h with user } : Handle Unit)
      (fun _ h => Owned env I h ∧ user = h.user) fun _ h => Owned env I h :=
  Triple.modify fun _ hh => ⟨⟨hh.1.1, hh.2⟩, rfl⟩

theorem catchRuntime_keeps {σ : Type} {J : σ → Prop} {x : EStateM Exn σ α} {f : Bytes → EStateM Exn σ α}
    (hx : Keeps J x fun _ _ => True) (hf : ∀ what, Keeps J (f what) fun _ _ => True) :
    Keeps J (catchRuntime x f) fun _ _ => True := by
  intro s hs
  have hends := hx s hs
  rw [catchRuntime]
  cases hr : x s with
  | ok a t =>
    rw [hr] at hends
    exact hends
  | error e t =>
    rw [hr] at hends
    cases e with
    | http code what | runtime what => exact hf what t hends
    | std what | other | gone => exact hends

theorem answerSession_keeps : Keeps (Owned env I) answerSession fun _ _ => True := by
  refine (member_keeps _).bind fun u => Triple.pre (P := Owned env I) ?_ fun _ hh => hh.1
  exact (emplaceHeader_keeps _ _).bind fun _ => (setContent_keeps _).pre fun _ hh => hh.1

section

variable (h : ModelsKeep env I)

include h

/-- A session for the user of the handler, who stays the user. -/
theorem ownSession_keeps (u : User) (k : User → Handle Unit) (hk : ∀ v, Keeps (Owned env I) (k v) fun _ _ => True) :
    Triple (fun h => Owned env I h ∧ u = h.user) (do
      let user ← inWorld (u.createSession env)
      modify fun h => { h with user }
      k user) (fun _ h => Owned env I h ∧ True) fun _ h => Owned env I h := by
  have hcreate : Keeps (fun w => I w ∧ HasOwner env u.id w) (u.createSession env) fun v w => HasOwner env v.id w := by
    refine (createSession_keeps (h.and (HasOwner.kept u.id)) fun w hw => hw.2).post fun v w hw hv => ?_
    rw [hv]
    exact hw.2
  exact (inWorld_keeps hcreate).bind fun v => (setUser_keeps v).bind fun _ => (hk v).pre fun _ hh => hh.1

omit h in
/-- The user that a call of a model finds, and a session for it. -/
theorem login_keeps {β : Type} {x : User → Act β} {g : β → User}
    (hx : ∀ u : User, Keeps (fun w => I w ∧ HasOwner env u.id w) (x u) fun b w => HasOwner env (g b).id w)
    {k : β → Handle Unit} (hk : ∀ b, Triple (fun h => Owned env I h ∧ g b = h.user) (k b)
      (fun _ h => Owned env I h ∧ True) fun _ h => Owned env I h) :
    Keeps (Owned env I) (do
      let user ← member (·.user)
      let b ← inWorld (x user)
      modify fun h => { h with user := g b }
      k b) fun _ _ => True := by
  refine (member_keeps _).bind fun u => ?_
  refine Triple.bind ((inWorld_keeps (hx u)).pre fun _ hh => ⟨hh.1, hh.2.symm⟩) fun b => ?_
  exact (setUser_keeps (g b)).bind fun _ => hk b

theorem authPut_keeps (r : HttpRequest) : Keeps (Owned env I) (authPut env r) fun _ _ => True := by
  refine (parseJson_keeps r).bind fun j => Triple.pre (P := Owned env I) ?_ fun _ hh => hh.1
  refine Keeps.bind (jsonString_keeps _ _) fun email => Triple.pre (P := Owned env I) ?_ fun _ hh => hh.1
  refine Keeps.bind (jsonString_keeps _ _) fun pass => Triple.pre (P := Owned env I) ?_ fun _ hh => hh.1
  refine login_keeps (g := id) (fun u => ?_) fun u => ownSession_keeps h u _ fun _ => answerSession_keeps
  refine (userCreate_keeps (h.and (HasOwner.kept u.id)) u email pass).post fun v w hw hv => ?_
  rcases hv with hv | rfl
  · exact .inl hv
  · exact hw.2

theorem authPost_keeps (r : HttpRequest) : Keeps (Owned env I) (authPost env r) fun _ _ => True := by
  refine (parseJson_keeps r).bind fun j => Triple.pre (P := Owned env I) ?_ fun _ hh => hh.1
  refine Keeps.bind (jsonString_keeps _ _) fun email => Triple.pre (P := Owned env I) ?_ fun _ hh => hh.1
  refine Keeps.bind (jsonString_keeps _ _) fun pass => Triple.pre (P := Owned env I) ?_ fun _ hh => hh.1
  refine login_keeps (g := Prod.snd) (fun u => ?_) fun b => ?_
  · refine (authenticate_keeps (h.and (HasOwner.kept u.id)) u email pass).post fun v w hw hv => ?_
    split at hv
    · exact .inl hv
    · rw [hv]
      exact hw.2
  · obtain ⟨didAuthenticate, u⟩ := b
    dsimp only
    split
    · exact ownSession_keeps h u _ fun _ => answerSession_keeps
    · exact Triple.throw fun _ hh => hh.1

theorem oauthLogin_keeps (code : Bytes) : Keeps (Owned env I) (oauthLogin env code) fun _ _ => True := by
  have hgoogle {β : Type} {x : Act β} (hx : Still x) : Keeps (Owned env I) (inWorld x) fun _ _ => True :=
    fun hd hh => inWorld_keeps (u := hd.user) (Keeps.of_still hx) hd ⟨hh, rfl⟩
  refine Keeps.bind (hgoogle (getToken_still env code)) fun token => Triple.pre (P := Owned env I) ?_ fun _ hh => hh.1
  refine Keeps.bind (hgoogle (getEmail_still env token)) fun email => Triple.pre (P := Owned env I) ?_ fun _ hh => hh.1
  refine login_keeps (g := id) (fun u => ?_) fun u => ownSession_keeps h u _ fun _ => emplaceHeader_keeps _ _
  exact (fillByEmail_keeps (h.and (HasOwner.kept u.id)) u email).post fun v w _ hv => .inl hv

theorem authGet_keeps (r : HttpRequest) : Keeps (Owned env I) (authGet env r) fun _ _ => True := by
  have hbad : Keeps (Owned env I) badAuth fun _ _ => True := emplaceHeader_keeps _ _
  refine (setStatus_keeps _).bind fun _ => Triple.pre (P := Owned env I) ?_ fun _ hh => hh.1
  split
  · exact hbad
  · cases r.urlParams.lookup (text "code") with
    | none => exact hbad
    | some code => exact catchRuntime_keeps (oauthLogin_keeps h code) fun _ => hbad

theorem authMethod_keeps {r : HttpRequest} {method : HttpRequest → Handle Unit}
    (hm : (authHandler env).method r.verb = some method) : Keeps (Owned env I) (method r) fun _ _ => True := by
  cases hv : r.verb with
  | get =>
    rw [hv] at hm
    cases hm
    exact authGet_keeps h r
  | post =>
    rw [hv] at hm
    cases hm
    exact authPost_keeps h r
  | put =>
    rw [hv] at hm
    cases hm
    exact authPut_keeps h r
  | head | options | delete_ =>
    rw [hv] at hm
    cases hm
    exact notFound_keeps
  | other =>
    rw [hv] at hm
    cases hm

end

/-- `test_handler` reaches no model. -/
theorem testMethod_keeps {r : HttpRequest} {method : HttpRequest → Handle Unit}
    (hm : (testHandler env).method r.verb = some method) : Keeps (Owned env I) (method r) fun _ _ => True := by
  cases hv : r.verb with
  | get =>
    rw [hv] at hm
    cases hm
    exact setContent_keeps _
  | post | put | head | options | delete_ =>
    rw [hv] at hm
    cases hm
    exact notFound_keeps
  | other =>
    rw [hv] at hm
    cases hm

/-- A handler that sets nothing up and finishes nothing. -/
theorem run_keeps {handler : Handler} {r : HttpRequest} (hsetup : handler.setup r = pure ())
    (hfinish : handler.finish r = pure ())
    (hmethod : ∀ method, handler.method r.verb = some method → Keeps (Owned env I) (method r) fun _ _ => True) :
    Keeps (Owned env I) (handler.run r) fun _ _ => True := by
  rw [Handler.run, hsetup, pure_bind]
  cases hm : handler.method r.verb with
  | none => exact Keeps.pure fun _ _ => trivial
  | some method =>
    refine Keeps.bind (hmethod method hm) fun _ => Triple.pre (P := Owned env I) ?_ fun _ hh => hh.1
    rw [hfinish]
    exact Keeps.pure fun _ _ => trivial

/-! ## `process` -/

section

variable {J : Handling → Prop}

/-- What the responses that are written leave alone. -/
def Within (J : Handling → Prop) (s : Serving) : Prop := J s.handling

theorem inHandler_keeps {x : Handle α} (hx : Keeps J x fun _ _ => True) :
    Keeps (Within J) (inHandler x) fun _ _ => True := by
  intro s hs
  have hends := hx s.handling hs
  rw [inHandler]
  cases hr : x s.handling with
  | ok a hd =>
    rw [hr] at hends
    exact hends
  | error e hd =>
    rw [hr] at hends
    exact hends

theorem preparePayload_keeps (status : Nat) (body : Bytes) :
    Keeps (Within J) (preparePayload status body) fun _ _ => True := by
  rw [preparePayload]
  split
  · exact Keeps.throw _
  · exact Keeps.pure fun _ _ => trivial

theorem write_keeps (response : Response) : Keeps (Within J) (write response) fun _ _ => True :=
  Keeps.modify fun _ hs => hs

theorem buildError_keeps (status : Nat) (message : Bytes) : Keeps (Within J) (buildError status message) fun _ _ => True := by
  refine (orThrow_keeps _).bind fun body => Triple.pre (P := Within J) ?_ fun _ hs => hs.1
  exact Keeps.bind (preparePayload_keeps _ _) fun _ => (write_keeps _).pre fun _ hs => hs.1

theorem buildResponse_keeps (response : HTTPResponse) : Keeps (Within J) (buildResponse response) fun _ _ => True := by
  have hcheck : Keeps (Within J) (checkStatus response.status) fun _ _ => True := by
    rw [checkStatus]
    split
    · exact Keeps.pure fun _ _ => trivial
    · exact Keeps.throw _
  refine hcheck.bind fun _ => Triple.pre (P := Within J) ?_ fun _ hs => hs.1
  refine Keeps.bind (orThrow_keeps _) fun body => Triple.pre (P := Within J) ?_ fun _ hs => hs.1
  exact Keeps.bind (preparePayload_keeps _ _) fun _ => (write_keeps _).pre fun _ hs => hs.1

theorem buildFalse_keeps (status : Nat) (message : Bytes) :
    Keeps (Within J) (do buildError status message; return false) fun _ _ => True :=
  (buildError_keeps status message).bind fun _ => Triple.pure fun _ hs => ⟨hs.1, trivial⟩

theorem answerException_keeps (e : Exn) : Keeps (Within J) (answerException env e) fun _ _ => True := by
  cases e with
  | http code what | runtime what | std what | other => exact buildFalse_keeps _ _
  | gone => exact Keeps.throw _

/-- The `try` block, its `catch` clauses and the response. -/
theorem handled_keeps {handler : Handler} {r : HttpRequest} (req : Request)
    (hrun : Keeps J (handler.run r) fun _ _ => True) : Keeps (Within J) (handle env handler req r) fun _ _ => True := by
  have hhandler : Keeps (Within J) (runHandler handler req r) fun _ _ => True := by
    refine (inHandler_keeps hrun).bind fun known => Triple.pre (P := Within J) ?_ fun _ hs => hs.1
    cases known with
    | true => exact Keeps.pure fun _ _ => trivial
    | false => exact buildFalse_keeps _ _
  refine Keeps.bind (hhandler.tryCatch answerException_keeps) fun returned => Triple.pre (P := Within J) ?_ fun _ hs => hs.1
  cases returned with
  | false => exact Keeps.pure fun _ _ => trivial
  | true => exact Triple.bind (Triple.get fun _ hs => hs) fun s => buildResponse_keeps _

end

section

variable (h : ModelsKeep env I)

include h

/-- The gate reads the session and its user, and refreshes the session. -/
theorem gate_keeps (req : Request) : Keeps (Within fun h => I h.world) (gate req) fun _ _ => True := by
  have hworld {β : Type} {x : Act β} {Q : β → World → Prop} (hx : Keeps I x Q) :
      Keeps (Within fun h => I h.world) (inHandler (inWorld x)) fun _ _ => True := by
    refine inHandler_keeps fun hd hh => ?_
    have hends := hx hd.world hh
    rw [inWorld]
    cases hr : x hd.world with
    | ok a w =>
      rw [hr] at hends
      exact ⟨hends.1, trivial⟩
    | error e w =>
      rw [hr] at hends
      exact hends
  unfold gate
  cases req.find (text "session-token") with
  | none => exact buildFalse_keeps _ _
  | some token =>
    have hlookup : Keeps (Within fun h => I h.world) (lookUp token) fun _ _ => True := by
      refine Triple.bind (Triple.get fun _ hs => hs) fun s => ?_
      refine catchRuntime_keeps ?_ fun _ => Keeps.pure fun _ _ => trivial
      exact (hworld (fillByToken_keeps h _ token)).bind fun _ => Triple.pure fun _ hs => ⟨hs.1, trivial⟩
    refine hlookup.bind fun found => Triple.pre (P := Within fun h => I h.world) ?_ fun _ hs => hs.1
    cases found with
    | error what => exact buildFalse_keeps _ _
    | ok user =>
      have hset : Keeps (Within fun h => I h.world)
          (modify fun s => { s with handling := { s.handling with user } } : Serve Unit) fun _ _ => True :=
        Keeps.modify fun _ hs => hs
      refine hset.bind fun _ => Triple.pre (P := Within fun h => I h.world) ?_ fun _ hs => hs.1
      refine Keeps.bind (catchRuntime_keeps (hworld (refreshSession_keeps h user)) fun _ => Keeps.pure fun _ _ => trivial)
        fun _ => Triple.pure fun _ hs => ⟨hs.1, trivial⟩

/-- The calls of the routes that create no file. -/
theorem keeps_footprint {r : HttpRequest} {u : User} (hfile : ¬ CreatesFile env r) :
    Footprint env r u (Diag fun w => I w ∧ HasUser u.id w) (Diag fun w => I w ∧ HasUser u.id w) := by
  have huser : ModelsKeep env (HasUser u.id) := HasUser.kept u.id
  have hI := h.and huser
  have hdriven : Driven (Diag fun w => I w ∧ HasUser u.id w) := diag_driven hI.next
  constructor
  · exact fun _ _ => id
  · exact fun guid withData _ => fileFillByGuid_alike hdriven _ _ _ fun w v hd => by rw [hd.1]
  · exact fun _ => getFilesForUser_alike hdriven _ fun w v hd => by rw [hd.1]
  · exact fun f hc _ => absurd hc hfile
  · exact fun guid _ => projectFillByGuid_alike hdriven _ _ fun w v hd => by rw [hd.1]
  · exact fun _ => getProjectsForUser_alike hdriven _ _ fun w v hd => by rw [hd.1]
  · exact fun p _ => projectUpdate_alike hdriven p fun w v hd => ⟨by rw [hd.1], hI.update p w hd.2⟩
  · refine fun p _ => projectCreate_leads hdriven hdriven (fun _ _ => id) env p
      (fun w v hd => ⟨by rw [hd.1], hI.project p w hd.2⟩) fun w v hd => ?_
    rw [hd.1]
    exact ⟨rfl, rfl⟩

/-- `file_handler`, whose `post` creates a file of the user. -/
theorem fileHandler_keeps {r : HttpRequest} {u : User} :
    Alike (Paired env r u (Diag fun w => I w ∧ HasUser u.id w)) ((fileHandler env).run r) fun _ => True := by
  have huser : ModelsKeep env (HasUser u.id) := HasUser.kept u.id
  have hI := h.and huser
  have hdriven : Driven (Diag fun w => I w ∧ HasUser u.id w) := diag_driven hI.next
  refine model_run_alike rfl rfl (method_alike ⟨rfl, rfl, rfl⟩ (fun _ => ?_) (fun _ => ?_) fun _ => notFound_alike)
  · exact fileGet_alike fun guid _ => fileFillByGuid_alike hdriven _ _ _ fun w v hd => by rw [hd.1]
  · refine filePost_alike fun f hf hsize => fileCreate_alike hdriven env f (fun w v hd => ⟨by rw [hd.1], ?_⟩) fun w v hd => ?_
    · exact hI.file f w (by rw [hf]; exact hd.2.2) hsize hd.2
    · rw [hd.1]
      exact ⟨rfl, rfl, rfl⟩

/-- A handler of a route that wants a session, for a user that there is. -/
theorem authenticated_keeps {r : HttpRequest} {u : User} {handler : Handler}
    (hroute : findRoute env (applicationRoutes env) r.path = some handler)
    (hauth : handler.requiresAuthentication = true) :
    Alike (Paired env r u (Diag fun w => I w ∧ HasUser u.id w)) (handler.run r) fun _ => True := by
  by_cases hfile : strippedPath env r.path = text "/file"
  · have hsame : handler = fileHandler env := by
      rw [findRoute, hfile] at hroute
      exact (Option.some.inj hroute).symm
    rw [hsame]
    exact fileHandler_keeps h
  · exact run_footprint (keeps_footprint h fun hc => hfile hc.path) hroute hauth

theorem refreshed_keeps (token : Bytes) (userId : Int) {w : World} (hw : I w) : I (refreshed token userId w) := by
  rw [refreshed]
  split
  · exact h.next w hw
  · exact h.refresh token userId _ (h.next w hw)

/-- The user that the gate lets in is in the table. -/
theorem admitted_keeps {token : Bytes} {row : SessionRow} {owner : UserRow} {hd : Handling} (hw : I hd.world)
    (howner : tokenOwner token hd.world = some (row, owner)) :
    I (admitted token row owner hd).world ∧ HasUser row.userId (admitted token row owner hd).world := by
  refine ⟨refreshed_keeps h _ _ (h.next _ (h.next _ hw)), ?_⟩
  have huser : HasUser row.userId hd.world := by
    rw [tokenOwner] at howner
    obtain ⟨row', hrow, howner⟩ := Option.bind_eq_some_iff.mp howner
    obtain ⟨owner', hhead, heq⟩ := Option.map_eq_some_iff.mp howner
    cases heq
    have hmem := List.mem_filter.mp (List.mem_of_mem_head? hhead)
    exact ⟨owner, hmem.1, of_decide_eq_true hmem.2⟩
  have hkept : ModelsKeep env (HasUser row.userId) := HasUser.kept row.userId
  exact refreshed_keeps hkept _ _ huser

theorem serve_keeps {r : HttpRequest} {handler : Handler} (req : Request) {w : World}
    (hroute : findRoute env (applicationRoutes env) r.path = some handler) (hw : I w) :
    I (left (serve env handler req r { handling := handler.construct env w })).handling.world := by
  have hstart : I (handler.construct env w).world := h.connect w hw
  cases hauth : handler.requiresAuthentication with
  | true =>
    let s : Serving := { handling := handler.construct env w }
    have hgate := gate_keeps h req s hstart
    rw [serve, if_pos hauth]
    cases hr : gate req s with
    | error e t =>
      rw [hr] at hgate
      rw [bind_error hr]
      exact hgate
    | ok passed t =>
      rw [hr] at hgate
      rw [bind_ok hr]
      cases passed with
      | false => exact hgate.1
      | true =>
        obtain ⟨token, row, owner, -, -, howner, -, rfl⟩ := gate_passed_iff.mp hr
        obtain ⟨hI, huser⟩ := admitted_keeps h hstart howner
        have hhandle := handle_leads req (authenticated_keeps h (u := sessionUser token row owner) hroute hauth)
          { s with handling := admitted token row owner s.handling } _
          ⟨⟨⟨rfl, hI, huser⟩, rfl, rfl, .inl rfl⟩, rfl⟩
        exact hhandle.left.1.world.2.1
  | false =>
    have howned : Owned env I (handler.construct env w) := ⟨hstart, .inr rfl⟩
    have hrun : Keeps (Owned env I) (handler.run r) fun _ _ => True := by
      obtain ⟨before, after, hsplit, -⟩ := List.lookup_eq_some_iff.mp hroute
      have hmem : (strippedPath env r.path, handler) ∈ applicationRoutes env := by
        rw [hsplit]
        exact List.mem_append_right _ (.head _)
      simp only [applicationRoutes, List.mem_cons, Prod.mk.injEq, List.not_mem_nil, or_false] at hmem
      rcases hmem with ⟨-, rfl⟩ | ⟨-, rfl⟩ | ⟨-, rfl⟩ | ⟨-, rfl⟩ | ⟨-, rfl⟩ | ⟨-, rfl⟩ | ⟨-, rfl⟩ | ⟨-, rfl⟩ | ⟨-, rfl⟩
      · cases hauth
      · exact run_keeps rfl rfl fun method hm => testMethod_keeps hm
      · exact run_keeps rfl rfl fun method hm => authMethod_keeps h hm
      all_goals cases hauth
    have hhandled : Keeps (Within (Owned env I)) (handle env handler req r) fun _ _ => True := handled_keeps req hrun
    have hhandle := hhandled { handling := handler.construct env w } howned
    have hserve : serve env handler req r = handle env handler req r := by
      rw [serve, if_neg (by rw [hauth]; exact Bool.false_ne_true), pure_bind]
      exact if_pos rfl
    rw [hserve]
    cases hr : handle env handler req r { handling := handler.construct env w } with
    | ok a t =>
      rw [hr] at hhandle
      exact hhandle.1.1
    | error e t =>
      rw [hr] at hhandle
      exact hhandle.1

/-- **An invariant of the models is one of the server**: whatever is requested,
and whatever becomes of the statements, it is kept. -/
theorem process_keeps (req : Request) {w : World} (hw : I w) :
    I (left (process env (applicationRoutes env) req w)).handling.world := by
  have hstart : I (baseHandler.construct env w).world := h.connect w hw
  rw [process]
  cases httpRequest req with
  | none => exact hstart
  | some r =>
    dsimp only
    cases hroute : findRoute env (applicationRoutes env) r.path with
    | none =>
      exact (buildError_keeps (J := fun hd => I hd.world) 404 (text "Route not found")).left
        (s := { handling := baseHandler.construct env w }) hstart
    | some handler => exact serve_keeps h req hroute hw

end

end AudioToolApi
