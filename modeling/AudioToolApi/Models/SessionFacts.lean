/-
`session::create`: two statements, after which a row for the new token is
there.
-/
import AudioToolApi.Models.Session
import AudioToolApi.Utilities.DatabaseFacts

namespace AudioToolApi

open Effects

@[simp] theorem randBytes_ok_iff {env : Env} {b : Block} {w w' : World} :
    randBytes env w = .ok b w' ↔ env.random w.draws = b ∧ { w with draws := w.draws + 1 } = w' := by
  simp [randBytes, modifyGet_apply]

/-- The token that the next session gets. -/
def nextToken (env : Env) (w : World) : Bytes := base64Encode (env.random w.draws)

/-- The world once the next session is inserted. -/
def withSession (env : Env) (userId : Int) (w : World) : World :=
  insertSession userId (nextToken env w) { w with draws := w.draws + 1, faults := w.faults.tail }

theorem sessionCreate_ok_iff {env : Env} {userId : Int} {s : Session} {w w' : World} :
    Session.create env userId w = .ok s w' ↔
      w.Sound 2 ∧ (withSession env userId w).next = w' ∧
        ∃ row, ((withSession env userId w).db.sessions.filter (·.token = nextToken env w)).head? = some row ∧
          s = { userId, token := nextToken env w, created := row.created, expires := row.expires } := by
  have htoken : createToken env w = .ok (nextToken env w) { w with draws := w.draws + 1 } := rfl
  have hinsert : ∀ v : World, (insertSession userId (nextToken env w) v).faults = v.faults := fun _ => rfl
  rw [Session.create, bind_ok htoken]
  exact insertRead_ok_iff hinsert

theorem sessionCreate_returns_iff {env : Env} {userId : Int} {w : World} :
    (∃ s w', Session.create env userId w = .ok s w') ↔ w.Sound 2 := by
  simp only [sessionCreate_ok_iff]
  constructor
  · intro ⟨_, _, h, _⟩
    exact h
  · intro h
    have hlast : ∃ row, ((withSession env userId w).db.sessions.filter (·.token = nextToken env w)).head? = some row := by
      refine Option.isSome_iff_exists.mp ?_
      simp [withSession, insertSession]
    obtain ⟨row, hrow⟩ := hlast
    exact ⟨_, _, h, rfl, row, hrow, rfl⟩

/-- What becomes of `session::create`, and of the table: no row if the `INSERT`
does not run, and one that is told of only if the confirmation is answered. -/
inductive Made (w : World) : EStateM.Result Exn World Session → Prop
  | refused {e w'} : ¬ w.Executes 0 → w'.db.sessions = w.db.sessions → Made w (.error e w')
  | stranded {e w'} (row : SessionRow) : w.Executes 0 → ¬ w.Sound 2 → w'.db.sessions = w.db.sessions ++ [row] →
      Made w (.error e w')
  | made {s w'} (row : SessionRow) : w.Sound 2 → w'.db.sessions = w.db.sessions ++ [row] → row.token = s.token →
      Made w (.ok s w')

theorem sessionCreate_made (env : Env) (userId : Int) (w : World) : Made w (Session.create env userId w) := by
  have htoken : createToken env w = .ok (nextToken env w) { w with draws := w.draws + 1 } := rfl
  cases hf : w.fault with
  | none =>
    cases hf' : w.next.fault with
    | none =>
      have hsound : w.Sound 2 := World.sound_succ.mpr ⟨hf, World.sound_succ.mpr ⟨hf', World.sound_zero⟩⟩
      obtain ⟨s, w', h⟩ := sessionCreate_returns_iff.mpr hsound
      obtain ⟨-, rfl, row, -, rfl⟩ := sessionCreate_ok_iff.mp h
      rw [h]
      exact .made _ hsound rfl rfl
    | some f =>
      have hns : ¬ w.Sound 2 := by simp [World.sound_succ, hf, hf']
      have hinsert : execute (insertSession userId (nextToken env w)) { w with draws := w.draws + 1 } =
          .ok () (withSession env userId w) := execute_ok_iff.mpr ⟨hf, rfl⟩
      have hfault : (withSession env userId w).fault = some f := hf'
      obtain ⟨e, he⟩ := select_error (fun v => v.db.sessions.filter (·.token = nextToken env w)) hfault
      rw [Session.create, bind_ok htoken, bind_ok hinsert, bind_error he]
      exact .stranded _ (.inl hf) hns rfl
  | some f =>
    have hns : ¬ w.Sound 2 := by simp [World.sound_succ, hf]
    have hfault : ({ w with draws := w.draws + 1 } : World).fault = some f := hf
    cases f with
    | lost what =>
      have hinsert : execute (insertSession userId (nextToken env w)) { w with draws := w.draws + 1 } =
          .error (.runtime what) (withSession env userId w) := by
        rw [execute, statement, hfault]
        rfl
      rw [Session.create, bind_ok htoken, bind_error hinsert]
      exact .stranded _ (.inr ⟨what, hf⟩) hns rfl
    | refused _ | hung =>
      have hno : ¬ w.Executes 0 := by simp [World.Executes, hf]
      have hinsert : ∃ e, execute (insertSession userId (nextToken env w)) { w with draws := w.draws + 1 } =
          .error e ({ w with draws := w.draws + 1 } : World).next := by
        rw [execute, statement, hfault]
        exact ⟨_, rfl⟩
      obtain ⟨e, he⟩ := hinsert
      rw [Session.create, bind_ok htoken, bind_error he]
      exact .refused hno rfl

theorem sessionCreate_takes (env : Env) (userId : Int) (w : World) : Takes 2 w (Session.create env userId w) := by
  have htoken : createToken env w = .ok (nextToken env w) { w with draws := w.draws + 1 } := rfl
  have hinsert : ∀ v : World, (insertSession userId (nextToken env w) v).faults = v.faults := fun _ => rfl
  rw [Session.create, bind_ok htoken]
  refine .of_eq (insertRead_takes hinsert ?_) rfl
  simp [insertSession, World.next]

/-- How `session::create` ends. -/
inductive Opened (userId : Int) (w : World) : EStateM.Result Exn World Session → Prop
  | ok {s w'} (row : SessionRow) : ¬ w.Hangs 2 → w'.db.sessions = w.db.sessions ++ [row] → row.userId = userId →
      row.token = s.token → Opened userId w (.ok s w')
  | failed {what w'} : ¬ w.Hangs 2 → Opened userId w (.error (.runtime what) w')
  | hung {w'} : w.Hangs 2 → Opened userId w (.error .gone w')

theorem sessionCreate_opened (env : Env) (userId : Int) (w : World) :
    Opened userId w (Session.create env userId w) := by
  have htakes := sessionCreate_takes env userId w
  cases hcreate : Session.create env userId w with
  | error e w' =>
    rw [hcreate] at htakes
    cases htakes with
    | failed _ hno => exact .failed hno
    | hung hhangs => exact .hung hhangs
  | ok s w' =>
    obtain ⟨hsound, rfl, row, -, rfl⟩ := sessionCreate_ok_iff.mp hcreate
    exact .ok _ hsound.not_hangs rfl rfl rfl

/-! ## Whose they are -/

/-- Sessions have been added, all of this owner's, and no user. -/
structure AddedFor (owner : Int) (start db : Tables) : Prop where
  users : db.users = start.users
  sessions : ∃ added, db.sessions = start.sessions ++ added ∧ ∀ s ∈ added, s.userId = owner

theorem AddedFor.refl (owner : Int) (db : Tables) : AddedFor owner db db :=
  ⟨rfl, [], (List.append_nil _).symm, nofun⟩

theorem AddedFor.insert {owner : Int} {start : Tables} {w : World} (h : AddedFor owner start w.db) (token : Bytes) :
    AddedFor owner start (insertSession owner token w).db := by
  obtain ⟨husers, added, hadded, hall⟩ := h
  let row : SessionRow :=
    { id := w.db.nextSession, userId := owner, token, created := w.now, expires := w.now + sessionLength }
  have hrow : row.userId = owner := rfl
  refine ⟨husers, added ++ [row], ?_, List.forall_mem_append.mpr ⟨hall, List.forall_mem_singleton.mpr hrow⟩⟩
  rw [← List.append_assoc, ← hadded]
  rfl

theorem sessionCreate_addedFor (env : Env) (owner : Int) (start : Tables) :
    Alike (Diag fun w => AddedFor owner start w.db) (Session.create env owner) fun _ => True := by
  have hdriven : Driven (Diag fun w => AddedFor owner start w.db) := diag_driven fun _ h => h
  have htoken : Alike (Diag fun w => AddedFor owner start w.db) (createToken env) fun _ => True :=
    fun w v h => by
      obtain ⟨rfl, hw⟩ := h
      exact .ok trivial ⟨rfl, hw⟩
  refine .bind htoken fun token _ => .bind (execute_alike hdriven fun w v h => ⟨by rw [h.1], h.2.insert token⟩) fun _ _ => ?_
  refine .bind (select_alike hdriven fun w v h => by rw [h.1]) fun rows _ => ?_
  exact .bind (firstRow_alike _ rows) fun _ _ => .pure trivial

/-- What is added is the one session, if it is one. -/
theorem AddedFor.row {owner : Int} {start db : Tables} {row : SessionRow} (h : AddedFor owner start db)
    (hrow : db.sessions = start.sessions ++ [row]) : row.userId = owner := by
  obtain ⟨-, added, hadded, hall⟩ := h
  rw [hrow, List.append_cancel_left_eq] at hadded
  exact hall row (hadded ▸ .head _)

end AudioToolApi
