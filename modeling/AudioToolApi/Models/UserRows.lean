/-
`get_files_for_user` and `get_projects_for_user` as they are written, with a
range-for over the query (models/file.cpp, models/project.cpp). They come to
the same as `getFilesForUser` and `getProjectsForUser`, which take the rows
all at once.
-/
import AudioToolApi.Models.File
import AudioToolApi.Models.Project
import AudioToolApi.Utilities.QueryIterator

namespace AudioToolApi

variable {ρ γ : Type}

/-- What the caller of the two functions sees: the query is gone. -/
def forgetQuery : EStateM.Result Exn (World × Query ρ) γ → EStateM.Result Exn World γ
  | .ok a (w, _) => .ok a w
  | .error e (w, _) => .error e w

/-- `if (query.row_count() > 0) for (auto row : query) emplace_back(...)`. -/
def modelsForUser (fuel : Nat) (stmt : World → List ρ) (model : ρ → γ) (w : World) :
    Option (EStateM.Result Exn World (List γ)) :=
  match Query.rowCount (w, { stmt }) with
  | .error e s => some (forgetQuery (.error e s))
  | .ok count s =>
    if 0 < count then (Query.rangeFor fuel (fun models row => models ++ [model row]) [] s).map forgetQuery
    else some (forgetQuery (.ok [] s))

/-- `SELECT ... FROM files WHERE user_id=? AND is_deleted=0`. -/
def filesOfUser (userId : Int) (w : World) : List FileRow :=
  w.db.files.filter fun r => r.userId = userId ∧ r.isDeleted = false

def File.ofRow (row : FileRow) : File :=
  { id := row.id, data := [], size := row.size, guid := row.guid, name := row.name, userId := row.userId
    sampleRate := row.sampleRate }

/-- `SELECT ... FROM projects WHERE creator_id=?`. -/
def projectsOfUser (userId : Int) (w : World) : List ProjectRow :=
  w.db.projects.filter (·.creatorId = userId)

def Project.ofRow (withData : Bool) (row : ProjectRow) : Project :=
  { id := row.id, guid := row.guid, name := row.name, projectData := if withData then row.projectData else []
    creatorId := row.creatorId, isDeleted := row.isDeleted }

namespace Looping

def getFilesForUser (fuel : Nat) (userId : Int) : World → Option (EStateM.Result Exn World (List File)) :=
  modelsForUser fuel (filesOfUser userId) File.ofRow

def getProjectsForUser (fuel : Nat) (userId : Int) (withData : Bool) :
    World → Option (EStateM.Result Exn World (List Project)) :=
  modelsForUser fuel (projectsOfUser userId) (Project.ofRow withData)

end Looping

open Effects Query

theorem foldl_snoc (model : ρ → γ) (rows : List ρ) (models : List γ) :
    rows.foldl (fun models row => models ++ [model row]) models = models ++ rows.map model := by
  induction rows generalizing models with
  | nil => simp
  | cons row rows ih => simp [ih]

theorem rowCount_fresh {w : World} {q : Query ρ} (hq : q.didExecute = false) (hw : w.fault = none)
    (hn : (q.stmt w.next).length < 2 ^ 31) :
    rowCount (w, q) = .ok (q.stmt w.next).length (w.next, q.fetched (q.stmt w.next) 0) := by
  rw [rowCount, bind_ok (execute_fresh hq hw), bind_ok result_fetched]
  simp only [storeInt32_of_lt hn]
  rfl

/-- The statement fails: so does `row_count`, and everything after it. -/
theorem rowCount_fault {w w' : World} {q : Query ρ} (hq : q.didExecute = false) {e : Exn}
    (he : select q.stmt w = .error e w') :
    rowCount (w, q) = .error e (w', { q with executions := q.executions + 1 }) := by
  have hrun : executeQuery (w, q) = .error e (w', { q with executions := q.executions + 1 }) := by
    rw [executeQuery, he]
  have hget : (get : Fetching ρ (World × Query ρ)) (w, q) = .ok (w, q) (w, q) := rfl
  have hexec : Query.execute (w, q) = .error e (w', { q with executions := q.executions + 1 }) := by
    rw [Query.execute, bind_ok hget]
    simp only
    rw [if_pos (by simp [hq]), bind_error hrun]
  rw [rowCount, bind_error hexec]

/-- One model for each row, in the order of the rows. -/
theorem modelsForUser_eq (stmt : World → List ρ) (model : ρ → γ) (w : World) (hn : (stmt w.next).length < 2 ^ 31)
    {fuel : Nat} (hfuel : (stmt w.next).length < fuel) :
    modelsForUser fuel stmt model w = some ((do return (← select stmt).map model : Act (List γ)) w) := by
  cases hw : w.fault with
  | some f =>
    obtain ⟨e, he⟩ := select_error stmt hw
    rw [modelsForUser, rowCount_fault rfl he, bind_error he]
    rfl
  | none =>
    rw [modelsForUser, rowCount_fresh rfl hw hn, bind_ok (select_ok hw)]
    simp only
    by_cases hzero : 0 < ((stmt w.next).length : Int)
    · rw [if_pos hzero, rangeFor_fetched hn _ _ hfuel, foldl_snoc]
      rfl
    · have hnil : stmt w.next = [] := List.eq_nil_of_length_eq_zero (by omega)
      rw [if_neg hzero, hnil]
      rfl

/-- **Range-for over a query.** For every query whose statement is taken and
has `n < 2^31` rows: the loop runs its body `n` times, the `k`-th time on
the `k`-th row, and ends without a throw, the statement having been executed
once. So `get_files_for_user` and `get_projects_for_user` return one model
for each matching row, in the order of the rows. -/
theorem each_row_once (w : World) (hw : w.fault = none) :
    (∀ (ρ γ : Type) (stmt : World → List ρ) (addr : Nat) (body : γ → ρ → γ) (acc : γ) (fuel : Nat),
      (stmt w.next).length < 2 ^ 31 → (stmt w.next).length < fuel →
      ∃ q, rangeFor fuel body acc (w, { stmt, addr }) = some (.ok ((stmt w.next).foldl body acc) (w.next, q)) ∧
        q.executions = 1) ∧
    (∀ (userId : Int) (fuel : Nat), (filesOfUser userId w.next).length < 2 ^ 31 →
      (filesOfUser userId w.next).length < fuel →
      Looping.getFilesForUser fuel userId w = some (.ok ((filesOfUser userId w.next).map File.ofRow) w.next)) ∧
    ∀ (userId : Int) (withData : Bool) (fuel : Nat), (projectsOfUser userId w.next).length < 2 ^ 31 →
      (projectsOfUser userId w.next).length < fuel →
      Looping.getProjectsForUser fuel userId withData w =
        some (.ok ((projectsOfUser userId w.next).map (Project.ofRow withData)) w.next) := by
  refine ⟨?_, ?_, ?_⟩
  · intro ρ γ stmt addr body acc fuel hn hfuel
    exact ⟨_, rangeFor_fresh rfl hw hn body acc hfuel, rfl⟩
  · intro userId fuel hn hfuel
    rw [Looping.getFilesForUser, modelsForUser_eq _ _ w hn hfuel, bind_ok (select_ok hw)]
    rfl
  · intro userId withData fuel hn hfuel
    rw [Looping.getProjectsForUser, modelsForUser_eq _ _ w hn hfuel, bind_ok (select_ok hw)]
    rfl

/-- Two projects of user 5, and one of user 6 between them. -/
def threeProjects : World where
  db := { projects := [⟨1, [1], 5, [65], [66], false⟩, ⟨2, [2], 6, [67], [68], false⟩, ⟨3, [3], 5, [69], [70], true⟩] }

theorem each_row_once_three_projects :
    Looping.getProjectsForUser 3 5 false threeProjects =
      some (.ok [⟨1, 5, false, [1], [65], []⟩, ⟨3, 5, true, [3], [69], []⟩] threeProjects.next) :=
  (each_row_once threeProjects rfl).2.2 5 false 3 (by decide) (by decide)

/-- The functions that take the rows all at once do the same, faults of the
driver included. -/
theorem getFilesForUser_eq (userId : Int) (w : World) (hn : (filesOfUser userId w.next).length < 2 ^ 31) :
    ∃ n, ∀ fuel, n < fuel → Looping.getFilesForUser fuel userId w = some (getFilesForUser userId w) :=
  ⟨_, fun _ hfuel => modelsForUser_eq _ _ w hn hfuel⟩

theorem getProjectsForUser_eq (userId : Int) (withData : Bool) (w : World)
    (hn : (projectsOfUser userId w.next).length < 2 ^ 31) :
    ∃ n, ∀ fuel, n < fuel →
      Looping.getProjectsForUser fuel userId withData w = some (getProjectsForUser userId withData w) :=
  ⟨_, fun _ hfuel => modelsForUser_eq _ _ w hn hfuel⟩

end AudioToolApi
