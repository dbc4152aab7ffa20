/-
Models that are created at the same time, each over a connection of its own:
between the `INSERT` and the confirmation of one, the others go on.
-/
import AudioToolApi.Lib.Runs
import AudioToolApi.Models.FileFacts
import AudioToolApi.Models.Project
import AudioToolApi.Utilities.JsonFacts
import Mathlib.Logic.Function.Basic

namespace AudioToolApi.Creating

open Effects Runs

/-! ## `create`, statement by statement -/

inductive Model
  | file (f : File)
  | project (p : Project)

def Model.create (env : Env) : Model → Act Model
  | .file f => do return .file (← f.create env)
  | .project p => do return .project (← p.create env)

/-- What the `INSERT` does. -/
def Model.inserted (env : Env) (m : Model) (w : World) : World :=
  match m with
  | .file f => insertFile f (env.uuid w.uuids) w
  | .project p => insertProject p (env.uuid w.uuids) w

/-- What `create` does after the `INSERT`. -/
def Model.confirm : Model → Act Model
  | .file f => do
    let rows ← select fun w => w.db.files.filter (·.id = w.lastInsertId)
    let row ← firstRow (text "Failed to confirm file insert") rows
    return .file { f with id := row.id, guid := row.guid }
  | .project p => do
    let rows ← select fun w => w.db.projects.filter (·.id = w.lastInsertId)
    let row ← firstRow (text "Project failed to create") rows
    return .project { p with guid := row.guid }

theorem create_eq (env : Env) (m : Model) : m.create env = execute (m.inserted env) >>= fun _ => m.confirm := by
  cases m with
  | file f =>
    simp only [Model.create, File.create, Model.confirm, bind_assoc, pure_bind]
    rfl
  | project p =>
    simp only [Model.create, Project.create, Model.confirm, bind_assoc, pure_bind]
    rfl

/-! ## Handlers -/

/-- What a connection has to itself. -/
structure DbConnection where
  lastInsertId : Int := 0
  faults : List (Option Fault) := []

/-- The world, over a connection. -/
def DbConnection.view (c : DbConnection) (w : World) : World :=
  { w with lastInsertId := c.lastInsertId, faults := c.faults }

inductive Stage
  | inserting
  | confirming
  | created (m : Model)
  | failed (e : Exn)

/-- A handler that creates a model. -/
structure Handler where
  model : Model
  stage : Stage := .inserting
  db : DbConnection := {}

def Handler.to (h : Handler) (stage : Stage) (w : World) : Handler × World :=
  ({ h with stage, db := { lastInsertId := w.lastInsertId, faults := w.faults } }, w)

/-- The handler's next statement. -/
def Handler.statement (env : Env) (h : Handler) (w : World) : Option (Handler × World) :=
  match h.stage with
  | .inserting =>
    match execute (h.model.inserted env) (h.db.view w) with
    | .ok _ w => some (h.to .confirming w)
    | .error e w => some (h.to (.failed e) w)
  | .confirming =>
    match h.model.confirm (h.db.view w) with
    | .ok m w => some (h.to (.created m) w)
    | .error e w => some (h.to (.failed e) w)
  | .created _ => none
  | .failed _ => none

/-- A `create` that succeeds, with no other statement in between, is these two. -/
theorem statements_create {env : Env} {h : Handler} {w v : World} {m : Model} (hstage : h.stage = .inserting)
    (hcreate : h.model.create env (h.db.view w) = .ok m v) :
    ∃ r, h.statement env w = some r ∧ r.1.statement env r.2 = some (h.to (.created m) v) := by
  rw [create_eq] at hcreate
  obtain ⟨_, t, hinsert, hconfirm⟩ := bind_ok_iff.mp hcreate
  refine ⟨h.to .confirming t, ?_, ?_⟩
  · simp only [Handler.statement, hstage, hinsert]
  · have hsees : (h.to .confirming t).1.model.confirm ((h.to .confirming t).1.db.view (h.to .confirming t).2) = .ok m v :=
      hconfirm
    simp only [Handler.statement, Handler.to] at hsees ⊢
    rw [hsees]

/-- The handlers, and the world they share. -/
structure Handlers (ι : Type) where
  world : World
  handler : ι → Handler

inductive Event (ι : Type)
  | statement (i : ι)
  | clock (now : Int)
  deriving DecidableEq

variable {ι : Type} {env : Env}

def step [DecidableEq ι] (env : Env) (s : Handlers ι) : Event ι → Option (Handlers ι)
  | .statement i =>
    ((s.handler i).statement env s.world).map fun (h, w) => { world := w, handler := Function.update s.handler i h }
  | .clock now => some { s with world := { s.world with now } }

/-! ## What is kept of the tables -/

structure ProjectsKeyed (db : Tables) : Prop where
  ids : Rows.Counted ProjectRow.id db.nextProject db.projects
  guids : Rows.Unique ProjectRow.guid db.projects

/-- No row has a guid that `UUID()` is still to give. -/
def Fresh (env : Env) (db : Tables) (uuids : Nat) : Prop :=
  ∀ k, uuids ≤ k → (∀ r ∈ db.files, r.guid ≠ env.uuid k) ∧ ∀ r ∈ db.projects, r.guid ≠ env.uuid k

structure Keyed (env : Env) (db : Tables) (uuids : Nat) : Prop where
  files : FilesKeyed db
  projects : ProjectsKeyed db
  fresh : Fresh env db uuids


/-- The row that holds a project. -/
structure Holds (row : ProjectRow) (p : Project) : Prop where
  guid : row.guid = p.guid
  creatorId : row.creatorId = p.creatorId
  name : row.name = p.name
  projectData : row.projectData = p.projectData

/-- `m` ends as `m'`, with what is in the row that has `id` and holds it. -/
inductive EndsAs (db : Tables) (id : Int) : Model → Model → Prop
  | file {f : File} {row : FileRow} : row ∈ db.files → row.id = id →
      row.Holds { f with id := row.id, guid := row.guid } →
      EndsAs db id (.file f) (.file { f with id := row.id, guid := row.guid })
  | project {p : Project} {row : ProjectRow} : row ∈ db.projects → row.id = id →
      Holds row { p with guid := row.guid } →
      EndsAs db id (.project p) (.project { p with guid := row.guid })

/-- The two have an id or a guid in common, and so the row. -/
def Model.SameRow : Model → Model → Prop
  | .file f, .file g => f.id = g.id ∨ f.guid = g.guid
  | .project p, .project q => p.guid = q.guid
  | _, _ => False

/-- Every model that was created has its own row, and no creation failed over a
connection that answers. -/
structure Unmixed (start s : Handlers ι) : Prop where
  own : ∀ i m, (s.handler i).stage = .created m → ∃ id, EndsAs s.world.db id (start.handler i).model m
  apart : ∀ i j m n, i ≠ j → (s.handler i).stage = .created m → (s.handler j).stage = .created n → ¬ m.SameRow n
  answered : ∀ i e, (s.handler i).stage = .failed e → ∃ f, some f ∈ (start.handler i).db.faults

/-- The driver takes every statement. -/
def DbConnection.Answers (c : DbConnection) : Prop := ∀ f ∈ c.faults, f = none

/-- The stage of a handler after so many statements, if the driver takes them. -/
inductive Stage.After : Nat → Stage → Prop
  | inserting : After 0 .inserting
  | confirming : After 1 .confirming
  | created {m : Model} : After 2 (.created m)

/-! ## One statement -/

def nextId (db : Tables) : Model → Int
  | .file _ => db.nextFile
  | .project _ => db.nextProject

theorem keyed_inserted {w : World} (h : Keyed env w.db w.uuids) (hinj : Function.Injective env.uuid) (m : Model) :
    Keyed env (m.inserted env w).db (m.inserted env w).uuids := by
  have hnow := h.fresh w.uuids le_rfl
  have hlater (k : Nat) (hk : w.uuids + 1 ≤ k) : env.uuid w.uuids ≠ env.uuid k := by
    intro he
    have := hinj he
    omega
  cases m with
  | file f =>
    refine ⟨h.files.insert hnow.1, ⟨h.projects.ids, h.projects.guids⟩, fun k hk => ?_⟩
    have hk' : w.uuids + 1 ≤ k := hk
    obtain ⟨hf, hp⟩ := h.fresh k (by omega)
    exact ⟨List.forall_mem_append.mpr ⟨hf, List.forall_mem_singleton.mpr (hlater k hk')⟩, hp⟩
  | project p =>
    refine ⟨⟨h.files.ids, h.files.guids⟩, ⟨h.projects.ids.insert rfl, h.projects.guids.append hnow.2⟩, fun k hk => ?_⟩
    have hk' : w.uuids + 1 ≤ k := hk
    obtain ⟨hf, hp⟩ := h.fresh k (by omega)
    exact ⟨hf, List.forall_mem_append.mpr ⟨hp, List.forall_mem_singleton.mpr (hlater k hk')⟩⟩

/-- A row that is there stays. -/
theorem EndsAs.inserted {w : World} {id : Int} {m m' : Model} (h : EndsAs w.db id m m') (n : Model) :
    EndsAs (n.inserted env w).db id m m' := by
  cases h with
  | file hrow hid hholds =>
    cases n with
    | file _ => exact .file (List.mem_append_left _ hrow) hid hholds
    | project _ => exact .file hrow hid hholds
  | project hrow hid hholds =>
    cases n with
    | file _ => exact .project hrow hid hholds
    | project _ => exact .project (List.mem_append_left _ hrow) hid hholds

/-- The row of an `INSERT` is that of the next id. -/
theorem endsAs_inserted (w : World) (m : Model) :
    (m.inserted env w).lastInsertId = nextId w.db m ∧ ∃ m', EndsAs (m.inserted env w).db (nextId w.db m) m m' := by
  cases m with
  | file f =>
    refine ⟨rfl, _, @EndsAs.file _ _ f (f.newRow (env.uuid w.uuids) w) (List.mem_append_right _ (.head _)) rfl
      ⟨rfl, rfl, rfl, rfl, rfl, rfl, rfl⟩⟩
  | project p =>
    refine ⟨rfl, _, @EndsAs.project _ _ p (p.newRow (env.uuid w.uuids) w) (List.mem_append_right _ (.head _)) rfl
      ⟨rfl, rfl, rfl, rfl⟩⟩

/-- Models of one kind. -/
def Model.Alike : Model → Model → Prop
  | .file _, .file _ => True
  | .project _, .project _ => True
  | _, _ => False

theorem EndsAs.below {db : Tables} {uuids : Nat} {id : Int} {m m' n : Model} (h : EndsAs db id m m')
    (hk : Keyed env db uuids) (halike : m.Alike n) : id < nextId db n := by
  cases h with
  | file hrow hid _ =>
    cases n with
    | file _ => exact hid ▸ hk.files.ids.below _ hrow
    | project _ => exact halike.elim
  | project hrow hid _ =>
    cases n with
    | file _ => exact halike.elim
    | project _ => exact hid ▸ hk.projects.ids.below _ hrow

/-- Models of one row were inserted with one id. -/
theorem EndsAs.id_eq {db : Tables} {uuids : Nat} {id id' : Int} {m m' n n' : Model} (hk : Keyed env db uuids)
    (h : EndsAs db id m m') (h' : EndsAs db id' n n') (hsame : m'.SameRow n') : m.Alike n ∧ id = id' := by
  cases h with
  | file hrow hid _ =>
    cases h' with
    | file hrow' hid' _ =>
      refine ⟨trivial, ?_⟩
      rcases hsame with he | he
      · rw [← hid, ← hid']
        exact he
      · rw [← hid, ← hid', hk.files.guids.eq_of_mem hrow hrow' he]
    | project _ _ _ => exact hsame.elim
  | project hrow hid _ =>
    cases h' with
    | file _ _ _ => exact hsame.elim
    | project hrow' hid' _ =>
      refine ⟨trivial, ?_⟩
      rw [← hid, ← hid', hk.projects.guids.eq_of_mem hrow hrow' hsame]

/-! ## What a handler's statement does -/

/-- The world as the statement finds it. -/
def Handler.sees (h : Handler) (w : World) : World := (h.db.view w).next

/-- The outcomes of the next statement of a handler. -/
inductive Outcome (env : Env) (h : Handler) (w : World) : Handler × World → Prop
  | inserted : h.stage = .inserting → Outcome env h w (h.to .confirming (h.model.inserted env (h.sees w)))
  | created {m : Model} : h.stage = .confirming → EndsAs w.db h.db.lastInsertId h.model m →
      Outcome env h w (h.to (.created m) (h.sees w))
  | failed {e : Exn} {f : Fault} : some f ∈ h.db.faults → Outcome env h w (h.to (.failed e) (h.sees w))
  | lost {e : Exn} {f : Fault} : some f ∈ h.db.faults →
      Outcome env h w (h.to (.failed e) (h.model.inserted env (h.sees w)))

/-- The confirmation finds the handler's own row. -/
theorem confirm_found {w : World} {m m' : Model} (hk : Keyed env w.db w.uuids) (h : EndsAs w.db w.lastInsertId m m')
    (hfault : w.fault = none) : m.confirm w = .ok m' w.next := by
  cases h with
  | @file f row hrow hid _ =>
    have hselect : w.next.db.files.filter (·.id = w.lastInsertId) = [row] := by
      rw [← hid]
      exact hk.files.ids.unique.filter_eq hrow
    exact selectRow_ok_iff.mpr ⟨hfault, row, congrArg List.head? hselect, rfl⟩
  | @project p row hrow hid _ =>
    have hselect : w.next.db.projects.filter (·.id = w.lastInsertId) = [row] := by
      rw [← hid]
      exact hk.projects.ids.unique.filter_eq hrow
    exact selectRow_ok_iff.mpr ⟨hfault, row, congrArg List.head? hselect, rfl⟩

theorem confirm_faulty {w : World} {f : Fault} (m : Model) (hfault : w.fault = some f) :
    ∃ e, m.confirm w = .error e w.next := by
  cases m with
  | file f =>
    obtain ⟨e, he⟩ := select_error (fun w => w.db.files.filter (·.id = w.lastInsertId)) hfault
    exact ⟨e, bind_error he⟩
  | project p =>
    obtain ⟨e, he⟩ := select_error (fun w => w.db.projects.filter (·.id = w.lastInsertId)) hfault
    exact ⟨e, bind_error he⟩

theorem fault_mem {w : World} {f : Fault} (h : w.fault = some f) : some f ∈ w.faults := by
  unfold World.fault at h
  cases hf : w.faults with
  | nil => simp [hf] at h
  | cons g fs => simp_all

theorem statement_outcome {h : Handler} {w : World} {r : Handler × World} (hk : Keyed env w.db w.uuids)
    (hends : h.stage = .confirming → ∃ m, EndsAs w.db h.db.lastInsertId h.model m)
    (hr : h.statement env w = some r) : Outcome env h w r := by
  cases hfault : (h.db.view w).fault with
  | none =>
    cases hstage : h.stage with
    | inserting =>
      have hok : execute (h.model.inserted env) (h.db.view w) = .ok () (h.model.inserted env (h.sees w)) :=
        execute_ok_iff.mpr ⟨hfault, rfl⟩
      simp only [Handler.statement, hstage, hok, Option.some.injEq] at hr
      exact hr ▸ .inserted hstage
    | confirming =>
      obtain ⟨m, hm⟩ := hends hstage
      have hok := @confirm_found env (h.db.view w) _ _ hk hm hfault
      simp only [Handler.statement, hstage, hok, Option.some.injEq] at hr
      exact hr ▸ .created hstage hm
    | created _ => simp [Handler.statement, hstage] at hr
    | failed _ => simp [Handler.statement, hstage] at hr
  | some f =>
    have hmem := fault_mem hfault
    cases hstage : h.stage with
    | inserting =>
      simp only [Handler.statement, hstage, execute, AudioToolApi.statement, hfault] at hr
      cases f with
      | refused _ => simp only [Option.some.injEq] at hr; exact hr ▸ .failed hmem
      | lost _ => simp only [Option.some.injEq] at hr; exact hr ▸ .lost hmem
      | hung => simp only [Option.some.injEq] at hr; exact hr ▸ .failed hmem
    | confirming =>
      obtain ⟨e, he⟩ := confirm_faulty h.model hfault
      simp only [Handler.statement, hstage, he, Option.some.injEq] at hr
      exact hr ▸ .failed hmem
    | created _ => simp [Handler.statement, hstage] at hr
    | failed _ => simp [Handler.statement, hstage] at hr

/-! ## The invariant -/

/-- The handler's row is inserted, and it has not failed. -/
def Handler.Holding (h : Handler) : Prop := h.stage = .confirming ∨ ∃ m, h.stage = .created m

/-- A handler that was `start`: once its row is inserted, that is the one with
its connection's last id. -/
structure Handler.Follows (h : Handler) (db : Tables) (start : Handler) : Prop where
  model : h.model = start.model
  faults : h.db.faults ⊆ start.db.faults
  confirming : h.stage = .confirming → ∃ m, EndsAs db h.db.lastInsertId h.model m
  created : ∀ m, h.stage = .created m → EndsAs db h.db.lastInsertId h.model m
  failed : ∀ e, h.stage = .failed e → ∃ f, some f ∈ start.db.faults

structure Inv (env : Env) (start s : Handlers ι) : Prop where
  keyed : Keyed env s.world.db s.world.uuids
  follows : ∀ i, (s.handler i).Follows s.world.db (start.handler i)
  apart : ∀ i j, i ≠ j → (s.handler i).Holding → (s.handler j).Holding →
    (s.handler i).model.Alike (s.handler j).model →
    (s.handler i).db.lastInsertId ≠ (s.handler j).db.lastInsertId

theorem alike_symm {m n : Model} (h : m.Alike n) : n.Alike m := by
  cases m <;> cases n <;> exact h

theorem Handler.Follows.holds {db : Tables} {start h : Handler} (hf : h.Follows db start) (hh : h.Holding) :
    ∃ m, EndsAs db h.db.lastInsertId h.model m := by
  rcases hh with hc | ⟨m, hm⟩
  · exact hf.confirming hc
  · exact ⟨m, hf.created m hm⟩

section

variable {h h' start : Handler} {w w' : World}

theorem Outcome.keyed (ho : Outcome env h w (h', w')) (hk : Keyed env w.db w.uuids)
    (hinj : Function.Injective env.uuid) : Keyed env w'.db w'.uuids := by
  have hins : Keyed env (h.model.inserted env (h.sees w)).db (h.model.inserted env (h.sees w)).uuids :=
    @keyed_inserted env (h.sees w) hk hinj h.model
  cases ho with
  | inserted _ => exact hins
  | created _ _ => exact hk
  | failed _ => exact hk
  | lost _ => exact hins

/-- The others' rows stay. -/
theorem Outcome.kept {id : Int} {m m' : Model} (ho : Outcome env h w (h', w')) (he : EndsAs w.db id m m') :
    EndsAs w'.db id m m' := by
  have hins : EndsAs (h.model.inserted env (h.sees w)).db id m m' := @EndsAs.inserted env (h.sees w) _ _ _ he h.model
  cases ho with
  | inserted _ => exact hins
  | created _ _ => exact he
  | failed _ => exact he
  | lost _ => exact hins

theorem Outcome.others {g : Handler} (ho : Outcome env h w (h', w')) (hg : g.Follows w.db start) :
    g.Follows w'.db start where
  model := hg.model
  faults := hg.faults
  confirming hc := by
    obtain ⟨m, hm⟩ := hg.confirming hc
    exact ⟨m, ho.kept hm⟩
  created m hm := ho.kept (hg.created m hm)
  failed := hg.failed

/-- The connection's next statements are among those it had. -/
theorem Outcome.faults (ho : Outcome env h w (h', w')) : h'.db.faults ⊆ h.db.faults := by
  have hsees : (h.sees w).faults ⊆ h.db.faults := fun _ hf => List.mem_of_mem_tail hf
  have hins : (h.model.inserted env (h.sees w)).faults ⊆ h.db.faults := by
    cases h.model <;> exact hsees
  cases ho with
  | inserted _ => exact hins
  | created _ _ => exact hsees
  | failed _ => exact hsees
  | lost _ => exact hins

theorem Outcome.follows (ho : Outcome env h w (h', w')) (hf : h.Follows w.db start) : h'.Follows w'.db start := by
  have hfaults := List.Subset.trans ho.faults hf.faults
  cases ho with
  | inserted _ =>
    obtain ⟨hid, m, hm⟩ := @endsAs_inserted env (h.sees w) h.model
    rw [← hid] at hm
    exact ⟨hf.model, hfaults, fun _ => ⟨m, hm⟩, fun _ hc => (by cases hc), fun _ hc => (by cases hc)⟩
  | created _ hm =>
    exact ⟨hf.model, hfaults, fun hc => (by cases hc), fun _ hc => (by cases hc; exact hm), fun _ hc => (by cases hc)⟩
  | failed hmem =>
    exact ⟨hf.model, hfaults, fun hc => (by cases hc), fun _ hc => (by cases hc), fun _ _ => ⟨_, hf.faults hmem⟩⟩
  | lost hmem =>
    exact ⟨hf.model, hfaults, fun hc => (by cases hc), fun _ hc => (by cases hc), fun _ _ => ⟨_, hf.faults hmem⟩⟩

theorem Outcome.model (ho : Outcome env h w (h', w')) : h'.model = h.model := by
  cases ho <;> rfl

/-- A new row has an id that no other handler was given. -/
theorem Outcome.apart {g : Handler} (ho : Outcome env h w (h', w')) (hk : Keyed env w.db w.uuids)
    (hg : ∃ m, EndsAs w.db g.db.lastInsertId g.model m) (halike : h.model.Alike g.model)
    (hold : h.Holding → h.db.lastInsertId ≠ g.db.lastInsertId) (hh : h'.Holding) :
    h'.db.lastInsertId ≠ g.db.lastInsertId := by
  cases ho with
  | inserted _ =>
    obtain ⟨m, hm⟩ := hg
    have hbelow := hm.below hk (alike_symm halike)
    have hid : (h.model.inserted env (h.sees w)).lastInsertId = nextId w.db h.model :=
      (@endsAs_inserted env (h.sees w) h.model).1
    intro he
    have he' : (h.model.inserted env (h.sees w)).lastInsertId = g.db.lastInsertId := he
    omega
  | created hc _ => exact hold (.inl hc)
  | failed _ =>
    rcases hh with hc | ⟨_, hc⟩ <;> cases hc
  | lost _ =>
    rcases hh with hc | ⟨_, hc⟩ <;> cases hc

end

theorem inv_step [DecidableEq ι] {start s s' : Handlers ι} {e : Event ι} (hinj : Function.Injective env.uuid)
    (hs : Inv env start s) (h : step env s e = some s') : Inv env start s' := by
  cases e with
  | clock now =>
    cases h
    exact ⟨hs.keyed, hs.follows, hs.apart⟩
  | statement i =>
    obtain ⟨⟨h', w'⟩, hr, rfl⟩ := Option.map_eq_some_iff.mp h
    have ho := statement_outcome hs.keyed (hs.follows i).confirming hr
    -- what is said of handler `i` and another
    have hpair (j : ι) (hj : j ≠ i) (hh : h'.Holding) (hg : (s.handler j).Holding)
        (halike : h'.model.Alike (s.handler j).model) : h'.db.lastInsertId ≠ (s.handler j).db.lastInsertId := by
      rw [ho.model] at halike
      exact ho.apart hs.keyed ((hs.follows j).holds hg) halike (fun hi => hs.apart i j (Ne.symm hj) hi hg halike) hh
    refine ⟨ho.keyed hs.keyed hinj, fun j => ?_, fun j k hjk => ?_⟩
    · by_cases hj : j = i
      · subst hj
        simpa using ho.follows (hs.follows j)
      · simpa [hj] using ho.others (hs.follows j)
    · by_cases hj : j = i
      · subst hj
        simpa [Ne.symm hjk] using hpair k (Ne.symm hjk)
      · by_cases hk : k = i
        · subst hk
          simp only [Function.update_of_ne hj, Function.update_self]
          intro hg hh halike
          exact (hpair j hj hh hg (alike_symm halike)).symm
        · simpa [hj, hk] using hs.apart j k hjk

theorem Inv.unmixed {start s : Handlers ι} (hs : Inv env start s) : Unmixed start s where
  own i m hm := by
    rw [← (hs.follows i).model]
    exact ⟨_, (hs.follows i).created m hm⟩
  apart i j m n hij hm hn hsame := by
    obtain ⟨halike, hid⟩ := EndsAs.id_eq hs.keyed ((hs.follows i).created m hm) ((hs.follows j).created n hn) hsame
    exact hs.apart i j hij (.inr ⟨m, hm⟩) (.inr ⟨n, hn⟩) halike hid
  answered i e he := (hs.follows i).failed e he

/-! ## Over connections that answer -/

/-- A statement that the driver takes. -/
theorem after_statement {h : Handler} {w : World} {k : Nat} (hk : Keyed env w.db w.uuids)
    (hends : h.stage = .confirming → ∃ m, EndsAs w.db h.db.lastInsertId h.model m) (hanswers : h.db.Answers)
    (hafter : Stage.After k h.stage) :
    (∀ r, h.statement env w = some r → Stage.After (k + 1) r.1.stage) ∧ (k < 2 → ∃ r, h.statement env w = some r) := by
  refine ⟨fun r hr => ?_, fun hlt => ?_⟩
  · have ho := statement_outcome hk hends hr
    cases ho with
    | inserted hstage =>
      rw [hstage] at hafter
      cases hafter
      exact .confirming
    | created hstage _ =>
      rw [hstage] at hafter
      cases hafter
      exact .created
    | failed hmem => cases hanswers _ hmem
    | lost hmem => cases hanswers _ hmem
  · rw [Handler.statement]
    generalize h.stage = stage at hafter
    cases hafter with
    | inserting => cases execute (h.model.inserted env) (h.db.view w) <;> exact ⟨_, rfl⟩
    | confirming => cases h.model.confirm (h.db.view w) <;> exact ⟨_, rfl⟩
    | created => exact absurd hlt (Nat.lt_irrefl 2)

/-- The connections are still those that answered. -/
theorem Inv.answers {start s : Handlers ι} (hs : Inv env start s) {i : ι} (h : (start.handler i).db.Answers) :
    (s.handler i).db.Answers := fun f hf => h f ((hs.follows i).faults hf)

theorem after_step [DecidableEq ι] {start s t : Handlers ι} {e : Event ι} (hs : Inv env start s) {i : ι}
    (h : (start.handler i).db.Answers) {k : Nat} (hafter : Stage.After k (s.handler i).stage)
    (ht : step env s e = some t) : Stage.After (k + [e].count (.statement i)) (t.handler i).stage := by
  cases e with
  | clock now =>
    cases ht
    exact hafter
  | statement j =>
    obtain ⟨⟨h', w'⟩, hr, rfl⟩ := Option.map_eq_some_iff.mp ht
    by_cases hj : j = i
    · subst hj
      simpa using (after_statement hs.keyed (hs.follows j).confirming (hs.answers h) hafter).1 _ hr
    · simpa [hj, Function.update_of_ne (Ne.symm hj)] using hafter

/-- How far a handler has come, by the statements it has had. -/
theorem after_run [DecidableEq ι] {start s t : Handlers ι} {events : List (Event ι)} (hinj : Function.Injective env.uuid)
    (hrun : Run (step env) s events t) (hs : Inv env start s) {i : ι} (h : (start.handler i).db.Answers) {k : Nat}
    (hafter : Stage.After k (s.handler i).stage) :
    Stage.After (k + events.count (.statement i)) (t.handler i).stage := by
  induction hrun generalizing k with
  | nil => exact hafter
  | @cons s t u e events ht _ ih =>
    have hrest := ih (inv_step hinj hs ht) (after_step hs h hafter ht)
    rwa [Nat.add_assoc, ← List.count_append, List.singleton_append] at hrest

/-- Every order of two statements each can happen. -/
theorem run_exists [DecidableEq ι] {start : Handlers ι} (hinj : Function.Injective env.uuid)
    (hanswers : ∀ i, (start.handler i).db.Answers) (events : List (Event ι)) :
    ∀ s : Handlers ι, Inv env start s →
      (∀ i, ∃ k, Stage.After k (s.handler i).stage ∧ k + events.count (.statement i) ≤ 2) →
      ∃ t, Run (step env) s events t := by
  induction events with
  | nil => exact fun s _ _ => ⟨s, .nil⟩
  | cons e events ih =>
    intro s hs hleft
    obtain ⟨t, ht⟩ : ∃ t, step env s e = some t := by
      cases e with
      | clock now => exact ⟨_, rfl⟩
      | statement i =>
        obtain ⟨k, hafter, hle⟩ := hleft i
        rw [List.count_cons_self] at hle
        obtain ⟨r, hr⟩ :=
          (after_statement hs.keyed (hs.follows i).confirming (hs.answers (hanswers i)) hafter).2 (by omega)
        exact ⟨_, by rw [step, hr]; rfl⟩
    obtain ⟨u, hu⟩ := ih t (inv_step hinj hs ht) fun i => by
      obtain ⟨k, hafter, hle⟩ := hleft i
      rw [← List.singleton_append, List.count_append, ← Nat.add_assoc] at hle
      exact ⟨_, after_step hs (hanswers i) hafter ht, hle⟩
    exact ⟨u, .cons ht hu⟩

/-- **Creates do not mix up their rows**, whatever the order of their
statements; a handler that has had its two over a connection that answers has
created its model, and where all connections answer every order of them can
happen. -/
theorem creates_unmixed [DecidableEq ι] {start : Handlers ι} (events : List (Event ι))
    (hinj : Function.Injective env.uuid) (hkeyed : Keyed env start.world.db start.world.uuids)
    (hstart : ∀ i, (start.handler i).stage = .inserting) :
    Always (step env) (Unmixed start) start events ∧
      (∀ s i, Run (step env) start events s → (start.handler i).db.Answers → events.count (.statement i) = 2 →
        ∃ m, (s.handler i).stage = .created m) ∧
      ((∀ i, (start.handler i).db.Answers) → (∀ i, events.count (.statement i) ≤ 2) →
        ∃ s, Run (step env) start events s) := by
  have hinv : Inv env start start := by
    refine ⟨hkeyed, fun i => ⟨rfl, List.Subset.refl _, ?_, ?_, ?_⟩, fun i j _ hi => ?_⟩
    · intro hc
      rw [hstart i] at hc
      cases hc
    · intro m hc
      rw [hstart i] at hc
      cases hc
    · intro e hc
      rw [hstart i] at hc
      cases hc
    · rw [Handler.Holding, hstart i] at hi
      rcases hi with hc | ⟨_, hc⟩ <;> cases hc
  have hfirst (i : ι) : Stage.After 0 (start.handler i).stage := hstart i ▸ .inserting
  refine ⟨?_, fun s i hrun hanswers hcount => ?_, fun hanswers hcount => ?_⟩
  · have halways : Always (step env) (Inv env start) start events :=
      Always.of_step (fun _ _ _ hs ht => inv_step hinj hs ht) hinv
    exact halways.mono fun _ hs => hs.unmixed
  · have hafter := after_run hinj hrun hinv hanswers (hfirst i)
    rw [hcount] at hafter
    generalize (s.handler i).stage = stage at hafter
    cases hafter with
    | created => exact ⟨_, rfl⟩
  · exact run_exists hinj hanswers events start hinv fun i => ⟨0, hfirst i, by have := hcount i; omega⟩

/-- A file and a project, created at once in an empty database. -/
def two : Handlers Bool where
  world := {}
  handler i := { model := if i then .file (storedFile (text "n")) else .project (Project.new plainEnv) }

theorem keyed_nothing : Keyed plainEnv {} 0 :=
  ⟨keyed_empty, ⟨⟨List.nodup_nil, by simp⟩, List.nodup_nil⟩, by simp [Fresh]⟩

/-- Both are created, each with a row of its own. -/
theorem two_unmixed : ∃ s m n, Run (step plainEnv) two
      [.statement true, .statement false, .statement true, .clock 1, .statement false] s ∧
    (s.handler true).stage = .created m ∧ (s.handler false).stage = .created n ∧
    (∃ id, EndsAs s.world.db id (two.handler true).model m) ∧
    (∃ id, EndsAs s.world.db id (two.handler false).model n) ∧ ¬ m.SameRow n := by
  obtain ⟨halways, hcreated, hruns⟩ := @creates_unmixed Bool plainEnv _ two
    [.statement true, .statement false, .statement true, .clock 1, .statement false] decimal_injective keyed_nothing
    fun _ => rfl
  have hanswers (i : Bool) : (two.handler i).db.Answers := by
    intro f hf
    cases hf
  obtain ⟨s, hs⟩ := hruns hanswers fun i => by cases i <;> decide
  obtain ⟨m, hm⟩ := hcreated s true hs (hanswers true) (by decide)
  obtain ⟨n, hn⟩ := hcreated s false hs (hanswers false) (by decide)
  have hunmixed : Unmixed two s := always_iff_prefix.mp halways _ s List.prefix_rfl hs
  exact ⟨s, m, n, hs, hm, hn, hunmixed.own true m hm, hunmixed.own false n hn,
    hunmixed.apart true false m n (by decide) hm hn⟩

end AudioToolApi.Creating
