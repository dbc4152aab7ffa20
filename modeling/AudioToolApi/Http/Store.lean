/-
The store over whole runs of the server: the clock ticks and requests are
processed, whatever they say and whatever becomes of their statements.

`Consistent` is what the store is at every moment; `Tables.Grown` is all that
can happen to it between two moments: rows are added and none removed, users
and files stay byte for byte, a session is only ever put off, and a project
keeps its id, its guid and its creator.

Requests come one at a time, and one `Env` is taken for a whole run: what is
read of memory that was never set, and what is answered to a given call, is
the same in each of its requests.
-/
import AudioToolApi.Http.Isolation
import AudioToolApi.Http.Keeping
import AudioToolApi.Lib.Ledger
import Mathlib.Data.List.Nodup

namespace AudioToolApi

open Effects Ledger

/-! ## Runs -/

inductive ServerEvent
  | tick (seconds : Nat)
  /-- What the driver does with the statements is open. -/
  | request (req : Request) (faults : List (Option Fault))

def ServerEvent.step (env : Env) (w : World) : ServerEvent → World
  | .tick seconds => { w with now := w.now + seconds }
  | .request req faults => (left (process env (applicationRoutes env) req { w with faults })).handling.world

/-- The world after these events. -/
def serverRun (env : Env) (w : World) (events : List ServerEvent) : World := events.foldl (ServerEvent.step env) w

/-! ## What can happen to the tables -/

/-- A session is put off, or stays as it is. -/
structure SessionRow.PutOff (r r' : SessionRow) : Prop where
  same : r' = { r with expires := r'.expires }
  expires : r.expires ≤ r'.expires

/-- What an update leaves of a project. -/
structure ProjectRow.Renamed (r r' : ProjectRow) : Prop where
  id : r'.id = r.id
  guid : r'.guid = r.guid
  creatorId : r'.creatorId = r.creatorId

def Tables.userTable (db : Tables) : Table UserRow := ⟨db.users, db.nextUser⟩
def Tables.sessionTable (db : Tables) : Table SessionRow := ⟨db.sessions, db.nextSession⟩
def Tables.fileTable (db : Tables) : Table FileRow := ⟨db.files, db.nextFile⟩
def Tables.projectTable (db : Tables) : Table ProjectRow := ⟨db.projects, db.nextProject⟩

structure Tables.Grown (db db' : Tables) : Prop where
  users : Ledger.Grown UserRow.id Eq db.userTable db'.userTable
  sessions : Ledger.Grown SessionRow.id SessionRow.PutOff db.sessionTable db'.sessionTable
  files : Ledger.Grown FileRow.id Eq db.fileTable db'.fileTable
  projects : Ledger.Grown ProjectRow.id ProjectRow.Renamed db.projectTable db'.projectTable

/-- The ids of each table ascend, below its counter. -/
structure Tables.Keyed (db : Tables) : Prop where
  users : Ledger.Keyed UserRow.id db.userTable
  sessions : Ledger.Keyed SessionRow.id db.sessionTable
  files : Ledger.Keyed FileRow.id db.fileTable
  projects : Ledger.Keyed ProjectRow.id db.projectTable

theorem SessionRow.PutOff.refl (r : SessionRow) : r.PutOff r := ⟨rfl, Int.le_refl _⟩

theorem SessionRow.PutOff.trans {r s t : SessionRow} (h : r.PutOff s) (h' : s.PutOff t) : r.PutOff t := by
  refine ⟨?_, Int.le_trans h.expires h'.expires⟩
  rw [h'.same, h.same]

theorem SessionRow.PutOff.id {r s : SessionRow} (h : r.PutOff s) : s.id = r.id := by
  rw [h.same]

theorem ProjectRow.Renamed.refl (r : ProjectRow) : r.Renamed r := ⟨rfl, rfl, rfl⟩

theorem ProjectRow.Renamed.trans {r s t : ProjectRow} (h : r.Renamed s) (h' : s.Renamed t) : r.Renamed t :=
  ⟨h'.id.trans h.id, h'.guid.trans h.guid, h'.creatorId.trans h.creatorId⟩

theorem Tables.Grown.refl (db : Tables) : db.Grown db where
  users := .refl (fun _ => rfl) _
  sessions := .refl SessionRow.PutOff.refl _
  files := .refl (fun _ => rfl) _
  projects := .refl ProjectRow.Renamed.refl _

theorem Tables.Grown.trans {db db' db'' : Tables} (h : db.Grown db') (h' : db'.Grown db'') : db.Grown db'' where
  users := h.users.trans (fun _ _ hrs => by rw [hrs]) (fun _ _ _ => Eq.trans) h'.users
  sessions := h.sessions.trans (fun _ _ => SessionRow.PutOff.id) (fun _ _ _ => SessionRow.PutOff.trans) h'.sessions
  files := h.files.trans (fun _ _ hrs => by rw [hrs]) (fun _ _ _ => Eq.trans) h'.files
  projects := h.projects.trans (fun _ _ hrs => hrs.id) (fun _ _ _ => ProjectRow.Renamed.trans) h'.projects

theorem Tables.Keyed.grown {db db' : Tables} (h : db.Keyed) (hg : db.Grown db') : db'.Keyed where
  users := h.users.grown (fun _ _ hrs => by rw [hrs]) hg.users
  sessions := h.sessions.grown (fun _ _ => SessionRow.PutOff.id) hg.sessions
  files := h.files.grown (fun _ _ hrs => by rw [hrs]) hg.files
  projects := h.projects.grown (fun _ _ hrs => hrs.id) hg.projects

/-! ## What the store is -/

/-- The sessions, of tokens drawn at these times. -/
structure SessionsSound (env : Env) (w : World) : Prop where
  tokens : ∃ ks : List Nat, w.db.sessions.map (·.token) = ks.map (fun k => base64Encode (env.random k)) ∧ ks.Nodup ∧
    ∀ k ∈ ks, k < w.draws
  owners : ∀ s ∈ w.db.sessions, HasOwner env s.userId w
  window : ∀ s ∈ w.db.sessions, s.created + sessionLength ≤ s.expires ∧ s.expires ≤ w.now + sessionLength

/-- A file belongs to a user that there is, and is as long as it says. -/
structure FileRow.Sound (w : World) (f : FileRow) : Prop where
  owner : HasUser f.userId w
  size : f.size = f.data.length
  isDeleted : f.isDeleted = false
  created : f.created ≤ w.now

/-- The guids of files and projects, each of a call of its own of `UUID()`. -/
def GuidsDrawn (env : Env) (w : World) : Prop :=
  ∃ fs ps : List Nat, w.db.files.map (·.guid) = fs.map env.uuid ∧ w.db.projects.map (·.guid) = ps.map env.uuid ∧
    (fs ++ ps).Nodup ∧ ∀ k ∈ fs ++ ps, k < w.uuids

structure Consistent (env : Env) (w : World) : Prop where
  hashes : ∀ u ∈ w.db.users, ∃ password, env.pbkdf2 password u.nacl = some u.hash
  sessions : SessionsSound env w
  files : ∀ f ∈ w.db.files, f.Sound w
  guids : GuidsDrawn env w

variable {env : Env} {w w' : World}

theorem HasOwner.later {id : Int} (h : HasOwner env id w) (husers : ∀ id, HasUser id w → HasUser id w') :
    HasOwner env id w' := h.imp_left (husers id)

theorem SessionsSound.later (h : SessionsSound env w) (hsessions : w'.db.sessions = w.db.sessions)
    (hdraws : w.draws ≤ w'.draws) (hnow : w.now ≤ w'.now) (husers : ∀ id, HasUser id w → HasUser id w') :
    SessionsSound env w' := by
  obtain ⟨ks, htokens, hnodup, hdrawn⟩ := h.tokens
  refine ⟨⟨ks, by rw [hsessions, htokens], hnodup, fun k hk => Nat.lt_of_lt_of_le (hdrawn k hk) hdraws⟩, ?_, ?_⟩
  · rw [hsessions]
    exact fun s hs => (h.owners s hs).later husers
  · rw [hsessions]
    intro s hs
    have hwindow := h.window s hs
    omega

theorem FileRow.Sound.later {f : FileRow} (h : f.Sound w) (hnow : w.now ≤ w'.now)
    (husers : ∀ id, HasUser id w → HasUser id w') : f.Sound w' :=
  ⟨husers _ h.owner, h.size, h.isDeleted, Int.le_trans h.created hnow⟩

theorem GuidsDrawn.later (h : GuidsDrawn env w) (hfiles : w'.db.files = w.db.files)
    (hprojects : w'.db.projects.map (·.guid) = w.db.projects.map (·.guid)) (huuids : w.uuids ≤ w'.uuids) :
    GuidsDrawn env w' := by
  obtain ⟨fs, ps, hfs, hps, hnodup, hdrawn⟩ := h
  exact ⟨fs, ps, by rw [hfiles, hfs], by rw [hprojects, hps], hnodup, fun k hk => Nat.lt_of_lt_of_le (hdrawn k hk) huuids⟩

/-- Time passes, and nothing else. -/
theorem Consistent.later (h : Consistent env w) (hdb : w'.db = w.db) (hdraws : w.draws ≤ w'.draws) (hnow : w.now ≤ w'.now)
    (huuids : w.uuids ≤ w'.uuids) : Consistent env w' := by
  have husers : ∀ id, HasUser id w → HasUser id w' := fun id hid => by rwa [HasUser, hdb]
  refine ⟨by rw [hdb]; exact h.hashes, ?_, ?_, ?_⟩
  · exact h.sessions.later (by rw [hdb]) hdraws hnow husers
  · rw [hdb]
    exact fun f hf => (h.files f hf).later hnow husers
  · exact h.guids.later (by rw [hdb]) (by rw [hdb]) huuids

/-- A session, of a token that no other session has drawn. -/
theorem SessionsSound.insert (h : SessionsSound env w) {userId : Int} (howner : HasOwner env userId w) :
    SessionsSound env (withSession env userId w) := by
  obtain ⟨ks, htokens, hnodup, hdrawn⟩ := h.tokens
  refine ⟨⟨ks ++ [w.draws], ?_, ?_, ?_⟩, ?_, ?_⟩
  · simp [withSession, insertSession, htokens, nextToken]
  · refine List.nodup_append.mpr ⟨hnodup, List.nodup_singleton _, fun k hk k' hk' => ?_⟩
    rw [List.mem_singleton.mp hk']
    exact Nat.ne_of_lt (hdrawn k hk)
  · intro k hk
    show k < w.draws + 1
    rcases List.mem_append.mp hk with hk | hk
    · exact Nat.lt_succ_of_lt (hdrawn k hk)
    · rw [List.mem_singleton.mp hk]
      exact Nat.lt_succ_self _
  · exact List.forall_mem_append.mpr ⟨h.owners, List.forall_mem_singleton.mpr howner⟩
  · exact List.forall_mem_append.mpr ⟨h.window, List.forall_mem_singleton.mpr ⟨Int.le_refl _, Int.le_refl _⟩⟩

/-- Refreshing changes `expires`, and puts it off. -/
theorem refresh_putOff (h : SessionsSound env w) (token : Bytes) (userId : Int) :
    ∀ r ∈ w.db.sessions, r.PutOff
      (if r.token = token ∧ r.userId = userId then { r with expires := w.now + sessionLength } else r) := by
  intro r hr
  split
  · exact ⟨rfl, (h.window r hr).2⟩
  · exact .refl r

theorem SessionsSound.refresh (h : SessionsSound env w) (token : Bytes) (userId : Int) :
    SessionsSound env (refreshSessions token userId w) := by
  have htoken : (refreshSessions token userId w).db.sessions.map (·.token) = w.db.sessions.map (·.token) := by
    rw [refreshSessions, List.map_map]
    refine List.map_congr_left fun r hr => ?_
    have hput := (refresh_putOff h token userId r hr).same
    rw [Function.comp_apply, hput]
  obtain ⟨ks, htokens, hnodup, hdrawn⟩ := h.tokens
  refine ⟨⟨ks, htoken.trans htokens, hnodup, hdrawn⟩, ?_, ?_⟩
  · refine List.forall_mem_map.mpr fun r hr => ?_
    rw [(refresh_putOff h token userId r hr).same]
    exact h.owners r hr
  · refine List.forall_mem_map.mpr fun r hr => ?_
    have hwindow := h.window r hr
    show _ ∧ _ ≤ w.now + sessionLength
    split
    · dsimp only
      omega
    · exact hwindow

theorem nodup_insert {ks : List Nat} {n : Nat} (h : ks.Nodup) (hks : ∀ k ∈ ks, k < n) (l r : List Nat)
    (hsplit : ks = l ++ r) : (l ++ [n] ++ r).Nodup ∧ ∀ k ∈ l ++ [n] ++ r, k < n + 1 := by
  subst hsplit
  have hperm : (l ++ [n] ++ r).Perm (n :: (l ++ r)) := by
    rw [List.append_assoc]
    exact List.perm_middle
  refine ⟨hperm.nodup_iff.mpr (List.nodup_cons.mpr ⟨fun hn => absurd (hks n hn) (Nat.lt_irrefl n), h⟩), fun k hk => ?_⟩
  rcases List.mem_cons.mp (hperm.mem_iff.mp hk) with rfl | hk
  · exact Nat.lt_succ_self _
  · exact Nat.lt_succ_of_lt (hks k hk)

theorem GuidsDrawn.insertFile (h : GuidsDrawn env w) (f : File) :
    GuidsDrawn env (insertFile f (env.uuid w.uuids) w) := by
  obtain ⟨fs, ps, hfs, hps, hnodup, hdrawn⟩ := h
  obtain ⟨hnodup', hdrawn'⟩ := nodup_insert hnodup hdrawn fs ps rfl
  refine ⟨fs ++ [w.uuids], ps, ?_, hps, hnodup', hdrawn'⟩
  simp [AudioToolApi.insertFile, hfs, File.newRow]

theorem GuidsDrawn.insertProject (h : GuidsDrawn env w) (p : Project) :
    GuidsDrawn env (insertProject p (env.uuid w.uuids) w) := by
  obtain ⟨fs, ps, hfs, hps, hnodup, hdrawn⟩ := h
  obtain ⟨hnodup', hdrawn'⟩ := nodup_insert hnodup hdrawn (fs ++ ps) [] (List.append_nil _).symm
  rw [List.append_nil, List.append_assoc] at hnodup' hdrawn'
  refine ⟨fs, ps ++ [w.uuids], hfs, ?_, hnodup', hdrawn'⟩
  simp [AudioToolApi.insertProject, hps, Project.newRow]

theorem updateProjects_guids (p : Project) (w : World) :
    (updateProjects p w).db.projects.map (·.guid) = w.db.projects.map (·.guid) := by
  rw [updateProjects, List.map_map]
  refine List.map_congr_left fun r _ => ?_
  rw [Function.comp_apply]
  split <;> rfl

theorem filesLater (h : Consistent env w) (hdb : w'.db.files = w.db.files) (husers : w'.db.users = w.db.users)
    (hnow : w'.now = w.now) : ∀ f ∈ w'.db.files, f.Sound w' := by
  rw [hdb]
  refine fun f hf => (h.files f hf).later (Int.le_of_eq hnow.symm) fun id hid => ?_
  rwa [HasUser, husers]

/-- **Every statement keeps the store consistent.** -/
theorem consistent_kept (env : Env) : ModelsKeep env (Consistent env) where
  faults w faults h := h.later rfl (Nat.le_refl _) (Int.le_refl _) (Nat.le_refl _)
  connect w h := h.later rfl (Nat.le_refl _) (Int.le_refl _) (Nat.le_refl _)
  draw w h := h.later rfl (Nat.le_succ _) (Int.le_refl _) (Nat.le_refl _)
  user email hash nacl password w hhash h := by
    have husers : ∀ id, HasUser id w → HasUser id (insertUser email hash nacl w) := fun id hid =>
      have hkept : ModelsKeep env (HasUser id) := HasUser.kept id
      hkept.user email hash nacl password w hhash hid
    refine ⟨List.forall_mem_append.mpr ⟨h.hashes, List.forall_mem_singleton.mpr ⟨password, hhash⟩⟩, ?_, ?_, h.guids⟩
    · exact h.sessions.later rfl (Nat.le_refl _) (Int.le_refl _) husers
    · exact fun f hf => (h.files f hf).later (Int.le_refl _) husers
  session userId w howner h := ⟨h.hashes, h.sessions.insert howner, filesLater h rfl rfl rfl, h.guids⟩
  refresh token userId w h := ⟨h.hashes, h.sessions.refresh token userId, filesLater h rfl rfl rfl, h.guids⟩
  file f w huser hsize h :=
    ⟨h.hashes, h.sessions.later rfl (Nat.le_refl _) (Int.le_refl _) fun _ => id,
      List.forall_mem_append.mpr ⟨fun g hg => (h.files g hg).later (Int.le_refl _) fun _ => id,
        List.forall_mem_singleton.mpr ⟨huser, hsize, rfl, Int.le_refl _⟩⟩, h.guids.insertFile f⟩
  project p w h :=
    ⟨h.hashes, h.sessions.later rfl (Nat.le_refl _) (Int.le_refl _) fun _ => id, filesLater h rfl rfl rfl,
      h.guids.insertProject p⟩
  update p w h :=
    ⟨h.hashes, h.sessions.later rfl (Nat.le_refl _) (Int.le_refl _) fun _ => id, filesLater h rfl rfl rfl,
      h.guids.later rfl (updateProjects_guids p w) (Nat.le_refl _)⟩

/-! ## What a statement does to the tables -/

theorem Tables.Grown.ofUsers {db db' : Tables} (h : Ledger.Grown UserRow.id Eq db.userTable db'.userTable)
    (hrest : db'.sessionTable = db.sessionTable ∧ db'.fileTable = db.fileTable ∧ db'.projectTable = db.projectTable) :
    db.Grown db' := by
  have hrefl := Tables.Grown.refl db
  exact ⟨h, hrest.1 ▸ hrefl.sessions, hrest.2.1 ▸ hrefl.files, hrest.2.2 ▸ hrefl.projects⟩

theorem Tables.Grown.ofSessions {db db' : Tables}
    (h : Ledger.Grown SessionRow.id SessionRow.PutOff db.sessionTable db'.sessionTable)
    (hrest : db'.userTable = db.userTable ∧ db'.fileTable = db.fileTable ∧ db'.projectTable = db.projectTable) :
    db.Grown db' := by
  have hrefl := Tables.Grown.refl db
  exact ⟨hrest.1 ▸ hrefl.users, h, hrest.2.1 ▸ hrefl.files, hrest.2.2 ▸ hrefl.projects⟩

theorem Tables.Grown.ofFiles {db db' : Tables} (h : Ledger.Grown FileRow.id Eq db.fileTable db'.fileTable)
    (hrest : db'.userTable = db.userTable ∧ db'.sessionTable = db.sessionTable ∧ db'.projectTable = db.projectTable) :
    db.Grown db' := by
  have hrefl := Tables.Grown.refl db
  exact ⟨hrest.1 ▸ hrefl.users, hrest.2.1 ▸ hrefl.sessions, h, hrest.2.2 ▸ hrefl.projects⟩

theorem Tables.Grown.ofProjects {db db' : Tables}
    (h : Ledger.Grown ProjectRow.id ProjectRow.Renamed db.projectTable db'.projectTable)
    (hrest : db'.userTable = db.userTable ∧ db'.sessionTable = db.sessionTable ∧ db'.fileTable = db.fileTable) :
    db.Grown db' := by
  have hrefl := Tables.Grown.refl db
  exact ⟨hrest.1 ▸ hrefl.users, hrest.2.1 ▸ hrefl.sessions, hrest.2.2 ▸ hrefl.files, h⟩

theorem updateProjects_renamed (p : Project) (r : ProjectRow) :
    r.Renamed (if r.guid = p.guid then
      { r with name := p.name, projectData := p.projectData, isDeleted := p.isDeleted } else r) := by
  split
  · exact ⟨rfl, rfl, rfl⟩
  · exact .refl r

/-- **Every statement lets the tables grow**, and no more. -/
theorem grown_kept (env : Env) (start : Tables) : ModelsKeep env fun w => Consistent env w ∧ start.Grown w.db where
  faults w faults h := ⟨(consistent_kept env).faults w faults h.1, h.2⟩
  connect w h := ⟨(consistent_kept env).connect w h.1, h.2⟩
  draw w h := ⟨(consistent_kept env).draw w h.1, h.2⟩
  user email hash nacl password w hhash h :=
    ⟨(consistent_kept env).user email hash nacl password w hhash h.1,
      h.2.trans (.ofUsers (.insert (fun _ => rfl) w.db.userTable rfl) ⟨rfl, rfl, rfl⟩)⟩
  session userId w howner h :=
    ⟨(consistent_kept env).session userId w howner h.1,
      h.2.trans (.ofSessions (.insert SessionRow.PutOff.refl w.db.sessionTable rfl) ⟨rfl, rfl, rfl⟩)⟩
  refresh token userId w h :=
    ⟨(consistent_kept env).refresh token userId w h.1,
      h.2.trans (.ofSessions (.update w.db.sessionTable (refresh_putOff h.1.sessions token userId)) ⟨rfl, rfl, rfl⟩)⟩
  file f w huser hsize h :=
    ⟨(consistent_kept env).file f w huser hsize h.1,
      h.2.trans (.ofFiles (.insert (fun _ => rfl) w.db.fileTable rfl) ⟨rfl, rfl, rfl⟩)⟩
  project p w h :=
    ⟨(consistent_kept env).project p w h.1,
      h.2.trans (.ofProjects (.insert ProjectRow.Renamed.refl w.db.projectTable rfl) ⟨rfl, rfl, rfl⟩)⟩
  update p w h :=
    ⟨(consistent_kept env).update p w h.1,
      h.2.trans (.ofProjects (.update w.db.projectTable fun r _ => updateProjects_renamed p r) ⟨rfl, rfl, rfl⟩)⟩

/-! ## Runs -/

theorem ServerEvent.step_grown {start : Tables} (event : ServerEvent) (h : Consistent env w ∧ start.Grown w.db) :
    Consistent env (event.step env w) ∧ start.Grown (event.step env w).db := by
  cases event with
  | tick seconds => exact ⟨h.1.later rfl (Nat.le_refl _) (Int.le_add_of_nonneg_right (Int.natCast_nonneg _)) (Nat.le_refl _), h.2⟩
  | request req faults => exact process_keeps (grown_kept env start) req ((grown_kept env start).faults w faults h)

theorem serverRun_grown (h : Consistent env w) (events : List ServerEvent) :
    Consistent env (serverRun env w events) ∧ w.db.Grown (serverRun env w events).db := by
  have hrun : ∀ (events : List ServerEvent) (v : World), Consistent env v ∧ w.db.Grown v.db →
      Consistent env (serverRun env v events) ∧ w.db.Grown (serverRun env v events).db := by
    intro events
    induction events with
    | nil => exact fun v hv => hv
    | cons event events ih => exact fun v hv => ih _ (event.step_grown hv)
  exact hrun events w ⟨h, .refl _⟩

/-- **The store stays consistent**, whatever is requested. -/
theorem store_consistent (h : Consistent env w) (hkeyed : w.db.Keyed) (events : List ServerEvent) :
    Consistent env (serverRun env w events) ∧ (serverRun env w events).db.Keyed := by
  obtain ⟨hconsistent, hgrown⟩ := serverRun_grown h events
  exact ⟨hconsistent, hkeyed.grown hgrown⟩

/-- Its `UUID()` does not repeat itself. -/
def durableEnv : Env := { sampleEnv with uuid := fun k => List.replicate k 97 }

/-- A user is logged in. -/
def loggedIn : World where
  db := {
    users := [{ id := 1, email := text "a@b", hash := repeated 1, nacl := repeated 0 }]
    sessions := [{ id := 1, userId := 1, token := base64Encode (repeated 0), created := 0, expires := 3600 }]
    nextUser := 2
    nextSession := 2 }
  draws := 1

theorem loggedIn_consistent : Consistent durableEnv loggedIn where
  hashes := by
    intro u hu
    rw [List.mem_singleton.mp hu]
    exact ⟨[], rfl⟩
  sessions := by
    refine ⟨⟨[0], rfl, List.nodup_singleton _, by simp [loggedIn]⟩, ?_, ?_⟩
    · intro s hs
      rw [List.mem_singleton.mp hs]
      exact .inl ⟨_, .head _, rfl⟩
    · intro s hs
      rw [List.mem_singleton.mp hs]
      decide
  files := nofun
  guids := ⟨[], [], rfl, rfl, .nil, nofun⟩

theorem loggedIn_keyed : loggedIn.db.Keyed where
  users := ⟨List.pairwise_singleton _ _, by simp [Tables.userTable, loggedIn]⟩
  sessions := ⟨List.pairwise_singleton _ _, by simp [Tables.sessionTable, loggedIn]⟩
  files := ⟨.nil, nofun⟩
  projects := ⟨.nil, nofun⟩

theorem uploadFields_no_NUL :
    ∀ f ∈ [(text "session-token", base64Encode (repeated 0)),
      (text "content-type", text "multipart/form-data; boundary=b")], 0 ∉ f.2 := by
  decide

def uploadByte : Request :=
  { postFile with
    fields := [(text "session-token", base64Encode (repeated 0)),
      (text "content-type", text "multipart/form-data; boundary=b")]
    value_no_NUL := uploadFields_no_NUL }

/-- A run that uploads, and lets time pass. -/
theorem upload_keeps_store :
    Consistent durableEnv (serverRun durableEnv loggedIn [.request uploadByte [], .tick 5]) ∧
      (serverRun durableEnv loggedIn [.request uploadByte [], .tick 5]).db.Keyed :=
  store_consistent loggedIn_consistent loggedIn_keyed _

end AudioToolApi
