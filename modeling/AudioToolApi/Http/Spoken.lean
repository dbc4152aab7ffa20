/-
The models on a store whose texts are UTF-8, with a driver whose errors are
too: they keep it so, what they return is UTF-8, and so is what they throw.
-/
import AudioToolApi.Http.AuthFacts
import AudioToolApi.Lib.Triple
import AudioToolApi.Utilities.JsonUtf8

namespace AudioToolApi

open Effects

/-! ## The store -/

/-- The texts that are answered in JSON are UTF-8. -/
structure Tables.Spoken (db : Tables) : Prop where
  users : ∀ u ∈ db.users, Utf8 u.email
  files : ∀ f ∈ db.files, Utf8 f.guid ∧ Utf8 f.name
  projects : ∀ p ∈ db.projects, Utf8 p.guid ∧ Utf8 p.name ∧ Utf8 p.projectData

/-- Every statement ends, with an error in UTF-8 if with one. -/
structure World.Spoken (w : World) : Prop where
  db : w.db.Spoken
  faults : ∀ f, some f ∈ w.faults → f.Told

/-- The exception is answered. -/
def Exn.Told (env : Env) : Exn → Prop
  | .http code what => Tellable (env.intToStatus code) what
  | .runtime what | .std what => Utf8 what
  | .other => True
  | .gone => False

theorem World.Spoken.next {w : World} (h : w.Spoken) : w.next.Spoken :=
  ⟨h.db, fun f hf => h.faults f (List.mem_of_mem_tail hf)⟩

theorem World.Spoken.fault {w : World} (h : w.Spoken) {f : Fault} (hf : w.fault = some f) : f.Told := by
  rw [World.fault, Option.join_eq_some_iff] at hf
  exact h.faults f (List.mem_of_mem_head? hf)

/-! ## Statements -/

section

variable {env : Env} {α β : Type} {P : α → Prop} {Q : β → Prop}

theorem statement_spoken {act : World → α × World} (hact : ∀ w, w.Spoken → (act w).2.Spoken ∧ P (act w).1) :
    Says World.Spoken (Exn.Told env) (statement act) P := by
  intro w hw
  have hok := hact w.next hw.next
  rw [statement]
  cases hf : w.fault with
  | none => exact hok
  | some f =>
    have htold := hw.fault hf
    cases f with
    | refused what => exact ⟨hw.next, htold⟩
    | lost what => exact ⟨hok.1, htold⟩
    | hung => exact htold.elim

theorem select_spoken {rows : World → List α} (hrows : ∀ w, w.Spoken → ∀ r ∈ rows w, P r) :
    Says World.Spoken (Exn.Told env) (select rows) fun rs => ∀ r ∈ rs, P r :=
  statement_spoken fun w hw => ⟨hw, hrows w hw⟩

theorem execute_spoken {act : World → World} (hact : ∀ w, w.Spoken → (act w).Spoken) :
    Says World.Spoken (Exn.Told env) (execute act) fun _ => True :=
  statement_spoken fun w hw => ⟨hact w hw, trivial⟩

theorem firstRow_spoken {what : Bytes} (hwhat : Utf8 what) {rs : List α} (hrs : ∀ r ∈ rs, P r) :
    Says World.Spoken (Exn.Told env) (firstRow what rs) P := by
  cases rs with
  | nil => exact Says.throw hwhat
  | cons r rs => exact Says.pure (hrs r (by simp))

/-- The first of the selected rows, and what is made of it. -/
theorem selectRow_spoken {rows : World → List α} {what : Bytes} {f : α → Act β}
    (hrows : ∀ w, w.Spoken → ∀ r ∈ rows w, P r) (hwhat : Utf8 what)
    (hf : ∀ r, P r → Says World.Spoken (Exn.Told env) (f r) Q) :
    Says World.Spoken (Exn.Told env) (do let rs ← select rows; let row ← firstRow what rs; f row) Q :=
  (select_spoken hrows).bind fun _ hrs => (firstRow_spoken hwhat hrs).bind hf

end

variable {env : Env}

/-! ## Users and sessions -/

theorem randBytes_spoken : Says World.Spoken (Exn.Told env) (randBytes env) fun _ => True :=
  fun _ hw => ⟨⟨hw.db, hw.faults⟩, trivial⟩

theorem sessionCreate_spoken (userId : Int) :
    Says World.Spoken (Exn.Told env) (Session.create env userId) fun _ => True := by
  have hinsert (token : Bytes) (w : World) (hw : w.Spoken) : (insertSession userId token w).Spoken :=
    ⟨⟨hw.db.users, hw.db.files, hw.db.projects⟩, hw.faults⟩
  refine Says.bind (Q := fun _ => True) (randBytes_spoken.bind fun _ _ => Says.pure trivial) fun token _ => ?_
  refine (execute_spoken (hinsert token)).bind fun _ _ => ?_
  exact selectRow_spoken (P := fun _ => True) (fun _ _ _ _ => trivial) (utf8_text _) fun _ _ => Says.pure trivial

theorem createSession_spoken {u : User} (hu : Utf8 u.emailAddress) :
    Says World.Spoken (Exn.Told env) (u.createSession env) fun v => Utf8 v.emailAddress :=
  (sessionCreate_spoken u.id).bind fun _ _ => Says.pure hu

theorem fillById_spoken (u : User) (id : Int) :
    Says World.Spoken (Exn.Told env) (u.fillById id) fun v => Utf8 v.emailAddress :=
  selectRow_spoken (fun _ hw r hr => hw.db.users r (List.mem_of_mem_filter hr)) (utf8_text _) fun _ hr => Says.pure hr

theorem fillByEmail_spoken (u : User) {email : Bytes} (hemail : Utf8 email) :
    Says World.Spoken (Exn.Told env) (u.fillByEmail email) fun v => Utf8 v.emailAddress :=
  selectRow_spoken (P := fun _ => True) (fun _ _ _ _ => trivial) (utf8_text _) fun _ _ => Says.pure hemail

theorem fillByToken_spoken (u : User) (token : Bytes) :
    Says World.Spoken (Exn.Told env) (u.fillByToken token) fun v => Utf8 v.emailAddress :=
  selectRow_spoken (P := fun _ => True) (fun _ _ _ _ => trivial) (utf8_text _) fun row _ =>
    (fillById_spoken _ row.userId).bind fun _ hv => Says.pure hv

theorem refreshSession_spoken (u : User) : Says World.Spoken (Exn.Told env) u.refreshSession fun _ => True :=
  execute_spoken fun _ hw => ⟨⟨hw.db.users, hw.db.files, hw.db.projects⟩, hw.faults⟩

theorem logIn_spoken (u : User) (userId : Int) :
    Says World.Spoken (Exn.Told env) (u.logIn env userId) fun v => Utf8 v.2.emailAddress :=
  (fillById_spoken u userId).bind fun _ hv => (createSession_spoken hv).bind fun _ hv' => Says.pure hv'

theorem authenticate_spoken {u : User} (hu : Utf8 u.emailAddress) (email pass : Bytes) :
    Says World.Spoken (Exn.Told env) (u.authenticate env email pass) fun v => Utf8 v.2.emailAddress := by
  refine selectRow_spoken (P := fun _ => True) (fun _ _ _ _ => trivial) (utf8_text _) fun row _ => ?_
  cases env.pbkdf2 pass row.nacl with
  | none => exact Says.throw (utf8_text _)
  | some testHash =>
    dsimp only
    split
    · exact logIn_spoken u row.id
    · exact Says.pure hu

theorem userCreate_spoken {u : User} (hu : Utf8 u.emailAddress) {email : Bytes} (hemail : Utf8 email) (password : Bytes) :
    Says World.Spoken (Exn.Told env) (u.create env email password) fun v => Utf8 v.emailAddress := by
  refine randBytes_spoken.bind fun salt _ => ?_
  cases env.pbkdf2 password salt with
  | none => exact Says.throw (utf8_text _)
  | some hash =>
    have hinsert (w : World) (hw : w.Spoken) : (insertUser email hash salt w).Spoken :=
      ⟨⟨List.forall_mem_append.mpr ⟨hw.db.users, List.forall_mem_singleton.mpr hemail⟩, hw.db.files, hw.db.projects⟩,
        hw.faults⟩
    refine (execute_spoken hinsert).bind fun _ _ => ?_
    exact (authenticate_spoken hu email password).bind fun _ hv => Says.pure hv

/-! ## Files -/

def File.Spoken (f : File) : Prop := Utf8 f.guid ∧ Utf8 f.name

theorem File.Spoken.toJson {f : File} (h : f.Spoken) : f.toJson.Utf8 :=
  Json.utf8_jsonify (by simp [utf8_text, h.1, h.2])

theorem fileFillByGuid_spoken {f : File} (hf : Utf8 f.name) (guid : Bytes) (withData : Bool) :
    Says World.Spoken (Exn.Told env) (f.fillByGuid guid withData) File.Spoken := by
  refine selectRow_spoken (P := fun r => r.guid = guid ∧ Utf8 r.guid) (fun w hw r hr => ?_) (utf8_text _) fun r hr => Says.pure ?_
  · obtain ⟨hmem, hguid⟩ := List.mem_filter.mp hr
    exact ⟨of_decide_eq_true hguid, (hw.db.files r hmem).1⟩
  · exact ⟨hr.1 ▸ hr.2, hf⟩

theorem fileCreate_spoken (huuid : ∀ k, Utf8 (env.uuid k)) {f : File} (hf : Utf8 f.name) :
    Says World.Spoken (Exn.Told env) (f.create env) File.Spoken := by
  have hinsert (w : World) (hw : w.Spoken) : (insertFile f (env.uuid w.uuids) w).Spoken :=
    ⟨⟨hw.db.users, List.forall_mem_append.mpr ⟨hw.db.files, List.forall_mem_singleton.mpr ⟨huuid _, hf⟩⟩,
      hw.db.projects⟩, hw.faults⟩
  refine (execute_spoken hinsert).bind fun _ _ => ?_
  refine selectRow_spoken (P := fun r => Utf8 r.guid) (fun w hw r hr => ?_) (utf8_text _) fun r hr => Says.pure ⟨hr, hf⟩
  exact (hw.db.files r (List.mem_of_mem_filter hr)).1

theorem getFilesForUser_spoken (userId : Int) :
    Says World.Spoken (Exn.Told env) (getFilesForUser userId) fun fs => ∀ f ∈ fs, f.Spoken := by
  refine (select_spoken fun w hw r hr => hw.db.files r (List.mem_of_mem_filter hr)).bind fun rows hrows => Says.pure ?_
  exact List.forall_mem_map.mpr hrows

/-! ## Projects -/

def Project.Spoken (p : Project) : Prop := Utf8 p.guid ∧ Utf8 p.name ∧ Utf8 p.projectData

theorem Project.Spoken.toJson {p : Project} (h : p.Spoken) : p.toJson.Utf8 :=
  Json.utf8_jsonify (by simp [utf8_text, h.1, h.2.1, h.2.2])

theorem projectFillByGuid_spoken (p : Project) (guid : Bytes) :
    Says World.Spoken (Exn.Told env) (p.fillByGuid guid) Project.Spoken := by
  refine selectRow_spoken (P := fun r => r.guid = guid ∧ Utf8 r.guid ∧ Utf8 r.name ∧ Utf8 r.projectData)
    (fun w hw r hr => ?_) (utf8_text _) fun r hr => Says.pure ⟨hr.1 ▸ hr.2.1, hr.2.2⟩
  obtain ⟨hmem, hguid⟩ := List.mem_filter.mp hr
  exact ⟨of_decide_eq_true hguid, hw.db.projects r hmem⟩

theorem projectUpdate_spoken {p : Project} (hp : p.Spoken) :
    Says World.Spoken (Exn.Told env) p.update fun _ => True := by
  refine execute_spoken fun w hw => ⟨⟨hw.db.users, hw.db.files, List.forall_mem_map.mpr fun r hr => ?_⟩, hw.faults⟩
  have hr' := hw.db.projects r hr
  split
  · exact ⟨hr'.1, hp.2⟩
  · exact hr'

theorem projectCreate_spoken (huuid : ∀ k, Utf8 (env.uuid k)) {p : Project} (hp : Utf8 p.name ∧ Utf8 p.projectData) :
    Says World.Spoken (Exn.Told env) (p.create env) Project.Spoken := by
  have hinsert (w : World) (hw : w.Spoken) : (insertProject p (env.uuid w.uuids) w).Spoken :=
    ⟨⟨hw.db.users, hw.db.files,
      List.forall_mem_append.mpr ⟨hw.db.projects, List.forall_mem_singleton.mpr ⟨huuid _, hp⟩⟩⟩, hw.faults⟩
  refine (execute_spoken hinsert).bind fun _ _ => ?_
  refine selectRow_spoken (P := fun r => Utf8 r.guid) (fun w hw r hr => ?_) (utf8_text _) fun r hr => Says.pure ⟨hr, hp⟩
  exact (hw.db.projects r (List.mem_of_mem_filter hr)).1

theorem getProjectsForUser_spoken (userId : Int) (withData : Bool) :
    Says World.Spoken (Exn.Told env) (getProjectsForUser userId withData) fun ps => ∀ p ∈ ps, p.Spoken := by
  refine (select_spoken fun w hw r hr => hw.db.projects r (List.mem_of_mem_filter hr)).bind fun rows hrows => Says.pure ?_
  refine List.forall_mem_map.mpr fun r hr => ⟨(hrows r hr).1, (hrows r hr).2.1, ?_⟩
  cases withData with
  | true => exact (hrows r hr).2.2
  | false => exact Lexer.utf8_nil

end AudioToolApi
