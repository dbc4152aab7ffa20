/-
Invariants of the world that the models keep. `ModelsKeep env I` has one
field for each thing that a model does to the world; a call of a model does
nothing else, so it keeps `I` whatever becomes of its statements.

Sessions are created for users that there are. The exception is
`user_model::create`: where the check after its `INSERT` fails, the `id` is
still the one that no constructor sets.
-/
import AudioToolApi.Lib.Triple
import AudioToolApi.Models.ModelFootprint
import AudioToolApi.Models.SessionFacts
import AudioToolApi.Models.User

namespace AudioToolApi

open Effects

def HasUser (id : Int) (w : World) : Prop := ∃ row ∈ w.db.users, row.id = id

/-- The user is in the table, or its `id` was never set. -/
def HasOwner (env : Env) (id : Int) (w : World) : Prop := HasUser id w ∨ id = env.uninit.userId

/-- Nothing that a model does to the world breaks `I`. -/
structure ModelsKeep (env : Env) (I : World → Prop) : Prop where
  faults : ∀ w faults, I w → I { w with faults }
  /-- A connection has inserted nothing yet. -/
  connect : ∀ w, I w → I { w with lastInsertId := 0 }
  draw : ∀ w, I w → I { w with draws := w.draws + 1 }
  user : ∀ email hash (nacl : Block) password w, env.pbkdf2 password nacl = some hash → I w →
    I (insertUser email hash nacl w)
  session : ∀ userId w, HasOwner env userId w → I w → I (withSession env userId w)
  refresh : ∀ token userId w, I w → I (refreshSessions token userId w)
  file : ∀ (f : File) w, HasUser f.userId w → f.size = f.data.length → I w → I (insertFile f (env.uuid w.uuids) w)
  project : ∀ (p : Project) w, I w → I (insertProject p (env.uuid w.uuids) w)
  update : ∀ (p : Project) w, I w → I (updateProjects p w)

variable {env : Env} {I : World → Prop}

theorem ModelsKeep.next (h : ModelsKeep env I) (w : World) (hw : I w) : I w.next := h.faults w _ hw

/-- No user is ever removed. -/
theorem HasUser.kept (id : Int) : ModelsKeep env (HasUser id) where
  faults _ _ h := h
  connect _ h := h
  draw _ h := h
  user email hash nacl password w _ h := by
    obtain ⟨row, hrow, hid⟩ := h
    exact ⟨row, List.mem_append_left _ hrow, hid⟩
  session _ _ _ h := h
  refresh _ _ _ h := h
  file _ _ _ _ h := h
  project _ _ h := h
  update _ _ h := h

theorem ModelsKeep.and {J : World → Prop} (h : ModelsKeep env I) (h' : ModelsKeep env J) :
    ModelsKeep env fun w => I w ∧ J w where
  faults w faults hw := ⟨h.faults w faults hw.1, h'.faults w faults hw.2⟩
  connect w hw := ⟨h.connect w hw.1, h'.connect w hw.2⟩
  draw w hw := ⟨h.draw w hw.1, h'.draw w hw.2⟩
  user email hash nacl password w hhash hw :=
    ⟨h.user email hash nacl password w hhash hw.1, h'.user email hash nacl password w hhash hw.2⟩
  session userId w howner hw := ⟨h.session userId w howner hw.1, h'.session userId w howner hw.2⟩
  refresh token userId w hw := ⟨h.refresh token userId w hw.1, h'.refresh token userId w hw.2⟩
  file f w huser hsize hw := ⟨h.file f w huser hsize hw.1, h'.file f w huser hsize hw.2⟩
  project p w hw := ⟨h.project p w hw.1, h'.project p w hw.2⟩
  update p w hw := ⟨h.update p w hw.1, h'.update p w hw.2⟩

/-- Owners stay. -/
theorem HasOwner.kept (id : Int) : ModelsKeep env (HasOwner env id) := by
  have hkept : ModelsKeep env (HasUser id) := HasUser.kept id
  constructor
  · exact fun _ _ h => h
  · exact fun _ h => h
  · exact fun _ h => h
  · exact fun email hash nacl password w hhash h => h.imp_left (hkept.user email hash nacl password w hhash)
  · exact fun _ _ _ h => h
  · exact fun _ _ _ h => h
  · exact fun _ _ _ _ h => h
  · exact fun _ _ h => h
  · exact fun _ _ h => h

/-! ## Statements -/

section

variable {α : Type} {w : World}

/-- One statement, whatever becomes of it. -/
theorem statement_ends {act : World → α × World} {Q : α → World → Prop} {E : World → Prop} (hnext : E w.next)
    (hlost : E (act w.next).2) (hok : Q (act w.next).1 (act w.next).2) :
    Ends Q (fun _ => E) (statement act w) := by
  rw [statement]
  cases w.fault with
  | none => exact hok
  | some f =>
    cases f with
    | refused what => exact hnext
    | lost what => exact hlost
    | hung => exact hnext

theorem select_keeps (h : ModelsKeep env I) (rows : World → List α) :
    Keeps I (select rows) fun rs w => rows w = rs :=
  fun w hw => statement_ends (h.next w hw) (h.next w hw) ⟨h.next w hw, rfl⟩

theorem execute_keeps (h : ModelsKeep env I) {act : World → World} (hact : ∀ w, I w → I (act w)) :
    Keeps I (execute act) fun _ _ => True :=
  fun w hw => statement_ends (h.next w hw) (hact _ (h.next w hw)) ⟨hact _ (h.next w hw), trivial⟩

theorem firstRow_keeps {J : World → Prop} (what : Bytes) (rs : List α) : Keeps J (firstRow what rs) fun r _ => r ∈ rs :=
  .of_alike (firstRow_alike what rs)

/-- The first of the selected rows. -/
theorem selectRow_keeps {β : Type} (h : ModelsKeep env I) {rows : World → List α} {what : Bytes} {f : α → β}
    {Q : β → World → Prop} (hQ : ∀ row w, row ∈ rows w → I w → Q (f row) w) :
    Keeps I (do let rs ← select rows; let row ← firstRow what rs; return f row) Q := by
  refine (select_keeps h rows).bind fun rs => ?_
  have hfirst : Keeps (fun w => I w ∧ rows w = rs) (firstRow what rs) fun r _ => r ∈ rs := firstRow_keeps what rs
  refine Triple.bind (hfirst.imp (fun _ => id) (fun _ _ => id) fun _ _ hw => hw.1) fun row => Triple.pure fun w hw => ?_
  obtain ⟨⟨hI, rfl⟩, hrow⟩ := hw
  exact ⟨hI, hQ row w hrow hI⟩

end

/-! ## Sessions and users -/

theorem sessionCreate_keeps (h : ModelsKeep env I) {userId : Int} (howner : ∀ w, I w → HasOwner env userId w) :
    Keeps I (Session.create env userId) fun _ _ => True := by
  intro w hw
  have htoken : createToken env w = .ok (nextToken env w) { w with draws := w.draws + 1 } := rfl
  have hdraw : I { w with draws := w.draws + 1 } := h.draw w hw
  have hinsert : I (withSession env userId w) := h.session userId w (howner w hw) hw
  have hrest : Keeps I (do
      let rows ← select fun v => v.db.sessions.filter (·.token = nextToken env w)
      let row ← firstRow (text "Session did not insert properly into the database") rows
      return ({ userId, token := nextToken env w, created := row.created, expires := row.expires } : Session))
      fun _ _ => True := selectRow_keeps h fun _ _ _ _ => trivial
  rw [Session.create, bind_ok htoken]
  refine Triple.bind (P := fun v => v = { w with draws := w.draws + 1 }) (Q := fun _ => I) ?_ (fun _ => hrest) _ rfl
  intro v hv
  subst hv
  exact statement_ends (h.next _ hdraw) hinsert hinsert

theorem hasUser_of_mem {row : UserRow} {w : World} {p : UserRow → Bool} (h : row ∈ w.db.users.filter p) :
    HasUser row.id w := ⟨row, (List.mem_filter.mp h).1, rfl⟩

theorem fillById_keeps (h : ModelsKeep env I) (u : User) (id : Int) :
    Keeps I (u.fillById id) fun v w => v.id = id ∧ HasUser id w := by
  refine selectRow_keeps h fun row w hrow _ => ⟨rfl, ?_⟩
  have hid : row.id = id := of_decide_eq_true (List.mem_filter.mp hrow).2
  rw [← hid]
  exact hasUser_of_mem hrow

theorem fillByEmail_keeps (h : ModelsKeep env I) (u : User) (email : Bytes) :
    Keeps I (u.fillByEmail email) fun v w => HasUser v.id w :=
  selectRow_keeps h fun _ _ hrow _ => hasUser_of_mem hrow

theorem fillByToken_keeps (h : ModelsKeep env I) (u : User) (token : Bytes) :
    Keeps I (u.fillByToken token) fun v w => HasUser v.id w := by
  refine (select_keeps h _).bind fun rows => Triple.pre (P := I) ?_ fun _ hw => hw.1
  refine Keeps.bind (firstRow_keeps (J := I) _ rows) fun row => Triple.pre (P := I) ?_ fun _ hw => hw.1
  refine (fillById_keeps h _ row.userId).bind fun v => Triple.pure fun w hw => ⟨hw.1, ?_⟩
  rw [← hw.2.1] at hw
  exact hw.2.2

theorem createSession_keeps (h : ModelsKeep env I) {u : User} (howner : ∀ w, I w → HasOwner env u.id w) :
    Keeps I (u.createSession env) fun v _ => v.id = u.id :=
  (sessionCreate_keeps h howner).bind fun _ => Triple.pure fun _ hw => ⟨hw.1, rfl⟩

/-- What holds of the world beside `I`, and is kept, is there at the end. -/
theorem beside {α : Type} {J : World → Prop} {x : Act α} {Q : α → World → Prop} (hx : Keeps (fun w => I w ∧ J w) x Q) :
    Triple (fun w => I w ∧ J w) x (fun a w => I w ∧ (J w ∧ Q a w)) fun _ w => I w :=
  hx.imp (fun _ => id) (fun _ _ hw => ⟨hw.1.1, hw.1.2, hw.2⟩) fun _ _ hw => hw.1

theorem logIn_keeps (h : ModelsKeep env I) (u : User) (userId : Int) :
    Keeps I (u.logIn env userId) fun v w => v.1 = true ∧ HasUser v.2.id w := by
  refine (fillById_keeps h u userId).bind fun v => Triple.pre (P := fun w => I w ∧ HasUser v.id w) ?_ fun w hw => ?_
  · have hcreate : Keeps (fun w => I w ∧ HasUser v.id w) (v.createSession env) fun v' _ => v'.id = v.id :=
      createSession_keeps (h.and (HasUser.kept v.id)) fun w hw => .inl hw.2
    refine Triple.bind (beside hcreate) fun v' => Triple.pure fun w hw => ⟨hw.1, rfl, ?_⟩
    rw [hw.2.2]
    exact hw.2.1
  · obtain ⟨hI, hid, huser⟩ := hw
    exact ⟨hI, by rwa [hid]⟩

theorem authenticate_keeps (h : ModelsKeep env I) (u : User) (email pass : Bytes) :
    Keeps I (u.authenticate env email pass) fun v w => if v.1 then HasUser v.2.id w else v.2 = u := by
  refine (select_keeps h _).bind fun rows => Triple.pre (P := I) ?_ fun _ hw => hw.1
  refine Keeps.bind (firstRow_keeps (J := I) _ rows) fun row => Triple.pre (P := I) ?_ fun _ hw => hw.1
  cases env.pbkdf2 pass row.nacl with
  | none => exact Keeps.throw _
  | some testHash =>
    dsimp only
    split
    · refine (logIn_keeps h u row.id).post fun v w _ hv => ?_
      rw [if_pos hv.1]
      exact hv.2
    · exact Keeps.pure fun w _ => rfl

/-- The user is in the table, unless the check of the password failed. -/
theorem userCreate_keeps (h : ModelsKeep env I) (u : User) (email password : Bytes) :
    Keeps I (u.create env email password) fun v w => HasUser v.id w ∨ v = u := by
  have hsalt : Keeps I (randBytes env) fun _ _ => True := fun w hw => ⟨h.draw w hw, trivial⟩
  refine hsalt.bind fun salt => Triple.pre (P := I) ?_ fun _ hw => hw.1
  cases hhash : env.pbkdf2 password salt with
  | none => exact Keeps.throw _
  | some hash =>
    refine (execute_keeps h fun w hw => h.user email hash salt password w hhash hw).bind fun _ =>
      Triple.pre (P := I) ?_ fun _ hw => hw.1
    refine (authenticate_keeps h u email password).bind fun v => Triple.pure fun w hw => ⟨hw.1, ?_⟩
    have hv := hw.2
    split at hv
    · exact .inl hv
    · exact .inr hv

theorem refreshSession_keeps (h : ModelsKeep env I) (u : User) : Keeps I u.refreshSession fun _ _ => True :=
  execute_keeps h fun w hw => h.refresh _ _ w hw

end AudioToolApi
