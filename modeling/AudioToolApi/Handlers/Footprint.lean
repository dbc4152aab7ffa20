/-
What the handlers for users, files and projects reach: which calls of the
models each of them makes, and with whose ids. Two runs of a handler on one
request, by one user, in worlds that stand in a relation `R`, end the same
way if those calls do; what `R` is, is left open.
-/
import AudioToolApi.Handlers.Files
import AudioToolApi.Handlers.Project
import AudioToolApi.Lib.Effects

namespace AudioToolApi

open Effects

/-! ## What a request names -/

/-- The member of the request's JSON at `key`. -/
def SentMember (env : Env) (r : HttpRequest) (key : Bytes) (value : Json) : Prop :=
  ∃ j, env.parse r.body = .ok j ∧ j.find key = some value

/-- The URL parameter of the request. -/
def SentParam (r : HttpRequest) (name value : Bytes) : Prop := r.urlParams.lookup name = some value

/-- The JSON of the request asks for this `creator_id`. -/
def NamesCreator (env : Env) (r : HttpRequest) (creatorId : Int) : Prop :=
  ∃ value, SentMember env r (text "creator_id") value ∧ value.toInt = .ok creatorId

/-! ## Two runs of a handler -/

/-- Two handlings of the request `r` of the user `u`, which differ in nothing
but their worlds. -/
structure Paired (env : Env) (r : HttpRequest) (u : User) (R : World → World → Prop) (h k : Handling) : Prop where
  world : R h.world k.world
  same : { k with world := h.world } = h
  user : h.user = u
  json : h.json = .null ∨ env.parse r.body = .ok h.json

section

variable {env : Env} {r : HttpRequest} {u : User} {R : World → World → Prop} {α : Type} {P : α → Prop}

theorem catchRuntime_alike {σ : Type} {R : σ → σ → Prop} {x : EStateM Exn σ α} {f : Bytes → EStateM Exn σ α}
    (hx : Alike R x P) (hf : ∀ what, Alike R (f what) P) : Alike R (catchRuntime x f) P := by
  intro s t hR
  have hs := hx s t hR
  rw [catchRuntime, catchRuntime]
  generalize x s = v at hs ⊢
  generalize x t = w at hs ⊢
  cases hs with
  | ok ha hR' => exact .ok ha hR'
  | @error e s t hR' =>
    cases e with
    | http code what | runtime what => exact hf what _ _ hR'
    | std what | other | gone => exact .error hR'

theorem orThrow_alike {σ : Type} {R : σ → σ → Prop} (x : Except Bytes α) :
    Alike R (orThrow x) fun a => x = .ok a := by
  cases x with
  | ok a => exact .pure rfl
  | error what => exact .throw _

theorem require_alike {R : Handling → Handling → Prop} (check : Bool) (what : Bytes) :
    Alike R (require check what) fun _ => check = true := by
  rw [require]
  cases check with
  | true => exact .pure rfl
  | false => exact .throw _

/-- A string that is read from the JSON is a member of it. -/
theorem jsonString_alike {R : Handling → Handling → Prop} (j : Json) (key : Bytes) :
    Alike R (jsonString j key) fun s => j.find key = some (.string s) := by
  refine .bind (orThrow_alike _) fun v hv => (orThrow_alike _).mono fun s hs => ?_
  cases v with
  | string t =>
    cases hs
    cases j with
    | object members =>
      rw [Json.find]
      cases hl : members.lookup key with
      | none => simp [Json.at, hl] at hv
      | some v =>
        simp only [Json.at, hl, Option.getD_some, Except.ok.injEq] at hv
        rw [hv]
    | null | bool | int | float | string | array => cases hv
  | null | bool | int | float | array | object => cases hs

theorem jsonInt_alike {R : Handling → Handling → Prop} (j : Json) (key : Bytes) :
    Alike R (jsonInt j key) fun i => ∃ v, j.find key = some v ∧ v.toInt = .ok i := by
  refine .bind (orThrow_alike _) fun v hv => (orThrow_alike _).mono fun i hi => ?_
  cases j with
  | object members =>
    refine ⟨v, ?_, hi⟩
    rw [Json.find]
    cases hl : members.lookup key with
    | none =>
      simp only [Json.at, hl, Option.getD_none, Except.ok.injEq] at hv
      subst hv
      cases hi
    | some v' =>
      simp only [Json.at, hl, Option.getD_some, Except.ok.injEq] at hv
      rw [hv]
  | null =>
    cases hv
    cases hi
  | bool | int | float | string | array => cases hv

theorem member_alike (p : Handling → α) (hp : ∀ h w, p { h with world := w } = p h)
    (hP : ∀ h, h.user = u → (h.json = .null ∨ env.parse r.body = .ok h.json) → P (p h)) :
    Alike (Paired env r u R) (member p) P := by
  intro h k hR
  have he : p h = p k := by rw [← hR.same, hp]
  rw [member, member, he]
  exact .ok (he ▸ hP h hR.user hR.json) hR

theorem readMember_alike (p : Handling → α) (hp : ∀ h w, p { h with world := w } = p h) :
    Alike (Paired env r u R) (member p) fun _ => True :=
  member_alike p hp fun _ _ _ => trivial

theorem Paired.weaken {R' : World → World → Prop} (hR : ∀ w v, R w v → R' w v) (h k : Handling)
    (hpaired : Paired env r u R h k) : Paired env r u R' h k := { hpaired with world := hR _ _ hpaired.world }

theorem inWorld_leads {R' : World → World → Prop} {x : Act α} (hx : Leads R R' x P) :
    Leads (Paired env r u R) (Paired env r u R') (inWorld x) P := by
  intro h k hR
  have hs := hx _ _ hR.world
  rw [inWorld, inWorld]
  generalize x h.world = v at hs ⊢
  generalize x k.world = w at hs ⊢
  cases hs with
  | ok ha hR' => exact .ok ha ⟨hR', by rw [← hR.same], hR.user, hR.json⟩
  | error hR' => exact .error ⟨hR', by rw [← hR.same], hR.user, hR.json⟩

theorem inWorld_alike {x : Act α} (hx : Alike R x P) : Alike (Paired env r u R) (inWorld x) P := inWorld_leads hx

/-- A method that sets what it sets in the response. -/
theorem modify_alike (g : Handling → Handling) (hg : ∀ h w, g { h with world := w } = { g h with world := w })
    (hw : ∀ h, (g h).world = h.world) (hu : ∀ h, (g h).user = h.user) (hj : ∀ h, (g h).json = h.json) :
    Alike (Paired env r u R) (modify g : Handle Unit) fun _ => True := by
  refine .modify fun h k hR => ⟨?_, ?_, ?_, ?_⟩
  · rw [hw, hw]
    exact hR.world
  · rw [hw, ← hg, hR.same]
  · rw [hu, hR.user]
  · rw [hj]
    exact hR.json

theorem setContent_alike (c : Content) : Alike (Paired env r u R) (setContent c) fun _ => True :=
  modify_alike _ (fun _ _ => rfl) (fun _ => rfl) (fun _ => rfl) fun _ => rfl

theorem setResponseData_alike (d : ResponseData) : Alike (Paired env r u R) (setResponseData d) fun _ => True :=
  modify_alike _ (fun _ _ => rfl) (fun _ => rfl) (fun _ => rfl) fun _ => rfl

theorem notFound_alike : Alike (Paired env r u R) notFound fun _ => True :=
  .bind (setContent_alike _) fun _ _ => modify_alike _ (fun _ _ => rfl) (fun _ => rfl) (fun _ => rfl) fun _ => rfl

/-! ## Setting up and finishing -/

theorem parseJson_alike : Alike (Paired env r u R) (parseJson env r) fun _ => True := by
  have hread : Alike (Paired env r u R) (member (·.json)) fun _ => True := readMember_alike _ fun _ _ => rfl
  rw [parseJson]
  split
  · refine .bind (orThrow_alike _) fun j hj => .bind (.modify fun h k hR => ?_) fun _ _ => hread
    exact ⟨hR.world, by rw [← hR.same], hR.user, .inr hj⟩
  · exact hread

theorem finishModel_alike : Alike (Paired env r u R) finishModel fun _ => True :=
  .bind (readMember_alike _ fun _ _ => rfl) fun _ _ =>
    .bind (readMember_alike _ fun _ _ => rfl) fun _ _ => setContent_alike _

/-- The JSON of the handler is what the request sent. -/
theorem json_alike : Alike (Paired env r u R) (member (·.json)) fun j => ∀ key value, j.find key = some value →
    SentMember env r key value := by
  refine member_alike _ (fun _ _ => rfl) fun h _ hj key value hf => ?_
  rcases hj with hj | hj
  · rw [hj] at hf
    cases hf
  · exact ⟨_, hj, hf⟩

theorem userId_alike : Alike (Paired env r u R) (member (·.user.id)) fun id => id = u.id :=
  member_alike _ (fun _ _ => rfl) fun _ hu _ => by rw [hu]

/-! ## The handlers -/

theorem fileGet_alike
    (hfill : ∀ guid, SentMember env r (text "guid") (.string guid) →
      Alike R ((File.new env).fillByGuid guid false) fun _ => True) :
    Alike (Paired env r u R) (fileGet env) fun _ => True := by
  refine .bind json_alike fun j hj => .bind (require_alike _ _) fun _ _ => .bind (jsonString_alike _ _) fun guid hg => ?_
  exact .bind (inWorld_alike (hfill guid (hj _ _ hg))) fun _ _ => setResponseData_alike _

/-- The file that is created is of this user, and its size that of its data. -/
theorem filePost_alike
    (hcreate : ∀ f : File, f.userId = u.id → f.size = f.data.length → Alike R (f.create env) fun _ => True) :
    Alike (Paired env r u R) (filePost env r) fun _ => True := by
  refine .bind (require_alike _ _) fun _ _ => ?_
  cases r.files with
  | nil => exact .throw _
  | cons file _ =>
    refine .bind (P := fun _ => True) ?_ fun output _ => ?_
    · rw [processAudio]
      cases env.audio file with
      | output => exact .pure trivial
      | threw | gone => exact .throw _
    · refine .bind userId_alike fun userId hu => .bind (P := fun _ => True) ?_ fun _ _ => setResponseData_alike _
      exact catchRuntime_alike (inWorld_alike (hcreate _ hu rfl)) fun _ => .pure trivial

theorem hasParam_lookup {name : Bytes} (h : r.hasParam name = true) :
    SentParam r name ((r.urlParams.lookup name).getD []) := by
  obtain ⟨value, hv⟩ := Option.isSome_iff_exists.mp h
  rw [SentParam, hv, Option.getD_some]

theorem fileDataGet_alike
    (hfill : ∀ guid, SentParam r (text "guid") guid → Alike R ((File.new env).fillByGuid guid true) fun _ => True) :
    Alike (Paired env r u R) (fileDataGet env r) fun _ => True := by
  refine .bind (require_alike _ _) fun _ hp => .bind (inWorld_alike (hfill _ (hasParam_lookup hp))) fun f _ => ?_
  exact .bind (setContent_alike _) fun _ _ => modify_alike _ (fun _ _ => rfl) (fun _ => rfl) (fun _ => rfl) fun _ => rfl

theorem fileListGet_alike (hlist : Alike R (getFilesForUser u.id) fun _ => True) :
    Alike (Paired env r u R) fileListGet fun _ => True := by
  refine .bind userId_alike fun userId hu => ?_
  subst hu
  exact .bind (inWorld_alike hlist) fun _ _ => setResponseData_alike _

theorem projectGet_alike
    (hfill : ∀ guid, SentParam r (text "guid") guid → Alike R ((Project.new env).fillByGuid guid) fun _ => True) :
    Alike (Paired env r u R) (projectGet env r) fun _ => True :=
  .bind (require_alike _ _) fun _ hp => .bind (inWorld_alike (hfill _ (hasParam_lookup hp))) fun _ _ =>
    setResponseData_alike _

theorem projectPost_alike
    (hfill : ∀ guid, SentMember env r (text "guid") (.string guid) →
      Alike R ((Project.new env).fillByGuid guid) fun p => p.guid = guid)
    (hupdate : ∀ p : Project, SentMember env r (text "guid") (.string p.guid) → Alike R p.update fun _ => True) :
    Alike (Paired env r u R) (projectPost env) fun _ => True := by
  refine .bind json_alike fun j hj => .bind (require_alike _ _) fun _ _ => .bind (require_alike _ _) fun _ _ => ?_
  refine .bind (jsonString_alike _ _) fun guid hg => ?_
  refine .bind (inWorld_alike (hfill guid (hj _ _ hg))) fun project hp => ?_
  refine .bind (jsonString_alike _ _) fun name _ => .bind (jsonString_alike _ _) fun projectData _ => ?_
  have hguid : ({ project with name, projectData } : Project).guid = guid := hp
  exact .bind (inWorld_alike (hupdate _ (hguid ▸ hj _ _ hg))) fun _ _ => setResponseData_alike _

theorem projectPut_leads {R' : World → World → Prop} (hR : ∀ w v, R w v → R' w v)
    (hcreate : ∀ p : Project, NamesCreator env r p.creatorId → Leads R R' (p.create env) fun _ => True) :
    Leads (Paired env r u R) (Paired env r u R') (projectPut env) fun _ => True := by
  have hpaired : ∀ h k, Paired env r u R h k → Paired env r u R' h k := Paired.weaken hR
  refine .bind json_alike (fun j hj => .bind (require_alike _ _) (fun _ _ => .bind (require_alike _ _) (fun _ _ => ?_)
    hpaired) hpaired) hpaired
  refine .bind (jsonInt_alike _ _) (fun creatorId hc => ?_) hpaired
  obtain ⟨value, hfind, hvalue⟩ := hc
  have hnames : NamesCreator env r creatorId := ⟨value, hj _ _ hfind, hvalue⟩
  refine .bind (P := fun _ => True) ?_ (fun projectData _ => .bind (jsonString_alike _ _) (fun name _ => ?_) hpaired) hpaired
  · rw [putProjectData]
    split
    · exact (jsonString_alike _ _).mono fun _ _ => trivial
    · exact .pure trivial
  · exact .andThen (inWorld_leads (hcreate _ hnames)) fun _ _ => setResponseData_alike _

theorem projectListGet_alike (hlist : Alike R (getProjectsForUser u.id false) fun _ => True) :
    Alike (Paired env r u R) projectListGet fun _ => True := by
  refine .bind userId_alike fun userId hu => ?_
  subst hu
  exact .bind (inWorld_alike hlist) fun _ _ => setResponseData_alike _

theorem userGet_alike : Alike (Paired env r u R) (do setResponseData (.user (← member (·.user)))) fun _ => True :=
  .bind (readMember_alike _ fun _ _ => rfl) fun _ _ => setResponseData_alike _

end

end AudioToolApi
