/-
The password check. `user_model::authenticate` compares two binary strings
with `strcmp`, which stops at the first zero byte, or beyond the arrays where
they have none; and it reads a row without asking whether there is one.
`decidesPassword_iff` says exactly when it still is the check that two
128-byte strings are the same.
-/
import AudioToolApi.Models.User
import AudioToolApi.Models.SessionFacts

namespace AudioToolApi

open Effects

/-! ## `strcmp` -/

theorem cStr_append (s t : Bytes) : cStr (s ++ t) = if 0 ∈ s then cStr s else s ++ cStr t := by
  induction s with
  | nil => rfl
  | cons c s ih =>
    by_cases hc : c = 0
    · subst hc
      rw [if_pos (.head _)]
      rfl
    · have hs : cStr (c :: s) = c :: cStr s := List.takeWhile_cons_of_pos (decide_eq_true hc)
      have hst : cStr (c :: (s ++ t)) = c :: cStr (s ++ t) := List.takeWhile_cons_of_pos (decide_eq_true hc)
      rw [List.cons_append, hst, hs, ih]
      by_cases h0 : 0 ∈ s
      · rw [if_pos h0, if_pos (.tail _ h0)]
      · rw [if_neg h0, if_neg (by simp [h0, Ne.symm hc]), List.cons_append]

theorem cStr_length_lt {s : Bytes} (h : 0 ∈ s) : (cStr s).length < s.length := by
  induction s with
  | nil => cases h
  | cons c s ih =>
    by_cases hc : c = 0
    · subst hc
      exact Nat.zero_lt_succ _
    · have hs : cStr (c :: s) = c :: cStr s := List.takeWhile_cons_of_pos (decide_eq_true hc)
      have := ih (by simpa [Ne.symm hc] using h)
      rw [hs, List.length_cons, List.length_cons]
      omega

/-- What ends inside an array does not reach past another of its length. -/
theorem cStr_ne_append {a b : Bytes} (hl : a.length = b.length) (ha : 0 ∈ a) (t : Bytes) : cStr a ≠ b ++ t := by
  intro h
  have := cStr_length_lt ha
  rw [h, List.length_append] at this
  omega

/-- What `strcmp` on two arrays of one length says, and what it should say,
are the same: equal arrays are seen to be equal, because they have a zero byte
or because the memory after them has the same bytes up to one; and different
arrays differ before the first zero byte of either. -/
def StrcmpDecides (a b afterA afterB : Bytes) : Prop :=
  if a = b then 0 ∈ a ∨ cStr afterA = cStr afterB else ¬ (0 ∈ a ∧ 0 ∈ b ∧ cStr a = cStr b)

theorem strcmpEq_append {a b : Bytes} (hl : a.length = b.length) (afterA afterB : Bytes) :
    strcmpEq (a ++ afterA) (b ++ afterB) = decide (a = b) ↔ StrcmpDecides a b afterA afterB := by
  rw [strcmpEq, StrcmpDecides, cStr_append, cStr_append]
  by_cases hab : a = b
  · subst hab
    by_cases h0 : 0 ∈ a <;> simp [h0]
  · have hne : ∀ x y, a ++ x ≠ b ++ y := by
      intro x y h
      exact hab (List.append_inj_left h hl)
    rw [if_neg hab, decide_eq_false hab, beq_eq_false_iff_ne]
    by_cases ha : 0 ∈ a
    · by_cases hb : 0 ∈ b
      · simp [ha, hb]
      · have hlen := cStr_ne_append hl ha (cStr afterB)
        simp [ha, hb, hlen]
    · by_cases hb : 0 ∈ b
      · have hlen := (cStr_ne_append hl.symm hb (cStr afterA)).symm
        simp [ha, hb, hlen]
      · simp [ha, hb, hne]

/-! ## The check -/

/-- The rows with this address. -/
def usersByEmail (email : Bytes) (w : World) : List UserRow := w.db.users.filter (·.email = email)

/-- What a password check is for: there is a user with this address, and the
hash of the password with its salt is the one that is stored. -/
def passwordMatches (env : Env) (email pass : Bytes) (w : World) : Bool :=
  match usersByEmail email w with
  | row :: _ => env.pbkdf2 pass row.nacl = some row.hash
  | [] => false

/-- It returns the answer; and where that is no, the tables are as they were. -/
def DecidesPassword (env : Env) (u : User) (email pass : Bytes) (w : World) : Prop :=
  ∃ u' w', u.authenticate env email pass w = .ok (passwordMatches env email pass w, u') w' ∧
    (passwordMatches env email pass w = false → w'.db = w.db)

/-- An answer comes from the first row, and from `strcmp`. -/
theorem authenticate_ok_iff {env : Env} {u u' : User} {email pass : Bytes} {w w' : World} {b : Bool} :
    u.authenticate env email pass w = .ok (b, u') w' ↔
      w.fault = none ∧ ∃ row, (usersByEmail email w).head? = some row ∧
        ∃ testHash, env.pbkdf2 pass row.nacl = some testHash ∧
          if strcmpEq (row.hash.val ++ env.afterHash) (testHash.val ++ env.afterTestHash) then
            u.logIn env row.id w.next = .ok (b, u') w'
          else (false, u) = (b, u') ∧ w.next = w' := by
  simp only [User.authenticate, selectRow_ok_iff]
  constructor
  · intro h
    obtain ⟨hf, row, hrow, h⟩ := h
    refine ⟨hf, row, hrow, ?_⟩
    cases ht : env.pbkdf2 pass row.nacl with
    | none => simp [ht] at h
    | some testHash =>
      refine ⟨testHash, rfl, ?_⟩
      simp only [ht] at h
      split at h <;> simp_all
  · intro h
    obtain ⟨hf, row, hrow, testHash, ht, h⟩ := h
    refine ⟨hf, row, hrow, ?_⟩
    simp only [ht]
    split <;> simp_all

theorem fillById_ok_iff {u u' : User} {id : Int} {w w' : World} :
    u.fillById id w = .ok u' w' ↔
      w.fault = none ∧ ∃ row, (w.db.users.filter (·.id = id)).head? = some row ∧
        { u with id, emailAddress := row.email } = u' ∧ w.next = w' := by
  simp only [User.fillById, selectRow_ok_iff, pure_ok_iff]
  exact Iff.rfl

/-- A login takes three statements, and nothing else of it can go wrong. -/
theorem logIn_returns_iff {env : Env} {u : User} {row : UserRow} {w : World} {b : Bool} (hrow : row ∈ w.db.users) :
    (∃ u' w', u.logIn env row.id w = .ok (b, u') w') ↔ b = true ∧ w.Sound 3 := by
  simp only [User.logIn, User.createSession, bind_ok_iff, fillById_ok_iff, pure_ok_iff, Prod.mk.injEq]
  constructor
  · intro h
    obtain ⟨_, _, _, _, ⟨hf, _, _, rfl, rfl⟩, _, _, ⟨_, _, hs, rfl, rfl⟩, ⟨rfl, rfl⟩, rfl⟩ := h
    exact ⟨rfl, World.sound_succ.mpr ⟨hf, sessionCreate_returns_iff.mp ⟨_, _, hs⟩⟩⟩
  · intro h
    obtain ⟨rfl, h⟩ := h
    obtain ⟨hf, h⟩ := World.sound_succ.mp h
    obtain ⟨_, _, hs⟩ := sessionCreate_returns_iff.mpr h
    have hfound : row ∈ w.db.users.filter (·.id = row.id) := by simp [hrow]
    obtain ⟨r, hr⟩ := Option.isSome_iff_exists.mp (List.isSome_head?.mpr (List.ne_nil_of_mem hfound))
    exact ⟨_, _, _, _, ⟨hf, r, hr, rfl, rfl⟩, _, _, ⟨_, _, hs, rfl, rfl⟩, ⟨rfl, rfl⟩, rfl⟩

/-- Which answers there are, once there is a row and a hash to compare. -/
theorem authenticate_answers_iff {env : Env} {u : User} {email pass : Bytes} {w : World} {row : UserRow}
    {testHash : Block} (hrow : (usersByEmail email w).head? = some row)
    (ht : env.pbkdf2 pass row.nacl = some testHash) (b : Bool) :
    (∃ u' w', u.authenticate env email pass w = .ok (b, u') w' ∧ (b = false → w'.db = w.db)) ↔
      strcmpEq (row.hash.val ++ env.afterHash) (testHash.val ++ env.afterTestHash) = b ∧
        w.Sound (if b then 4 else 1) := by
  have hmem : row ∈ w.next.db.users := (List.mem_filter.mp (List.mem_of_mem_head? hrow)).1
  simp only [authenticate_ok_iff, hrow, Option.some.injEq, exists_eq_left', ht]
  cases strcmpEq (row.hash.val ++ env.afterHash) (testHash.val ++ env.afterTestHash) with
  | true =>
    constructor
    · intro h
      obtain ⟨u', w', ⟨hf, h⟩, -⟩ := h
      obtain ⟨rfl, hs⟩ := (logIn_returns_iff hmem).mp ⟨u', w', h⟩
      exact ⟨rfl, World.sound_succ.mpr ⟨hf, hs⟩⟩
    · intro h
      obtain ⟨rfl, hs⟩ := h
      obtain ⟨hf, hs⟩ := World.sound_succ.mp hs
      obtain ⟨u', w', h⟩ := (logIn_returns_iff hmem).mpr ⟨rfl, hs⟩
      exact ⟨u', w', ⟨hf, h⟩, nofun⟩
  | false =>
    constructor
    · intro h
      obtain ⟨_, _, ⟨hf, ⟨⟩, rfl⟩, -⟩ := h
      exact ⟨rfl, World.sound_succ.mpr ⟨hf, World.sound_zero⟩⟩
    · intro h
      obtain ⟨rfl, hs⟩ := h
      exact ⟨u, w.next, ⟨(World.sound_succ.mp hs).1, rfl, rfl⟩, fun _ => rfl⟩

/-- **The password check is right exactly when** there is a user with this
address, the PBKDF2 of the password and the salt is computed, `strcmp` decides
whether the two hashes are the same, and the driver takes every statement
of the check. -/
theorem decidesPassword_iff (env : Env) (u : User) (email pass : Bytes) (w : World) :
    DecidesPassword env u email pass w ↔
      ∃ row, (usersByEmail email w).head? = some row ∧
        ∃ testHash, env.pbkdf2 pass row.nacl = some testHash ∧
          StrcmpDecides row.hash.val testHash.val env.afterHash env.afterTestHash ∧
            w.Sound (if row.hash = testHash then 4 else 1) := by
  rw [DecidesPassword]
  cases hrow : (usersByEmail email w).head? with
  | none => simp [authenticate_ok_iff, hrow]
  | some row =>
    cases ht : env.pbkdf2 pass row.nacl with
    | none => simp [authenticate_ok_iff, hrow, ht]
    | some testHash =>
      have hmatch : passwordMatches env email pass w = decide (row.hash.val = testHash.val) := by
        obtain ⟨rest, hrows⟩ := List.head?_eq_some_iff.mp hrow
        simp [passwordMatches, hrows, ht, Subtype.ext_iff, eq_comm]
      have hlen : row.hash.val.length = testHash.val.length := row.hash.property.trans testHash.property.symm
      rw [authenticate_answers_iff hrow ht, hmatch, strcmpEq_append hlen]
      simp only [Option.some.injEq, exists_eq_left', ht, decide_eq_true_eq]
      simp only [Subtype.ext_iff]

/-! ## The sessions it creates -/

/-- What `strcmp` answers on the two hashes, if it comes to that. -/
def comparedHashes (env : Env) (email pass : Bytes) (w : World) : Option Bool :=
  (usersByEmail email w).head?.bind fun row => (env.pbkdf2 pass row.nacl).map fun testHash =>
    strcmpEq (row.hash.val ++ env.afterHash) (testHash.val ++ env.afterTestHash)

/-- What `strcmp` takes for the same lets the user in if the driver takes every
statement. -/
theorem authenticate_passes_iff {env : Env} {u : User} {email pass : Bytes} {w : World}
    (hcmp : comparedHashes env email pass w = some true) :
    (∃ u' w', u.authenticate env email pass w = .ok (true, u') w') ↔ w.Sound 4 := by
  obtain ⟨row, hrow, hmap⟩ := Option.bind_eq_some_iff.mp hcmp
  obtain ⟨testHash, ht, hequal⟩ := Option.map_eq_some_iff.mp hmap
  have hanswers := authenticate_answers_iff (u := u) hrow ht true
  constructor
  · intro h
    obtain ⟨u', w', h⟩ := h
    exact (hanswers.mp ⟨u', w', h, nofun⟩).2
  · intro h
    obtain ⟨u', w', h, -⟩ := hanswers.mpr ⟨hequal, h⟩
    exact ⟨u', w', h⟩

/-- What becomes of `authenticate`, and of the sessions: a row as soon as the
hashes compare equal and the third statement runs, whatever it returns. -/
inductive Checked (env : Env) (u : User) (email pass : Bytes) (w : World) :
    EStateM.Result Exn World (Bool × User) → Prop
  | failed {e w'} : (comparedHashes env email pass w = some true → ¬ w.Executes 2) →
      (comparedHashes env email pass w = some false → w.fault ≠ none) → w'.db.sessions = w.db.sessions →
      Checked env u email pass w (.error e w')
  | denied : comparedHashes env email pass w = some false → w.fault = none →
      Checked env u email pass w (.ok (false, u) w.next)
  | stranded {e w'} (row : SessionRow) : comparedHashes env email pass w = some true → w.Executes 2 →
      w'.db.sessions = w.db.sessions ++ [row] → Checked env u email pass w (.error e w')
  | passed {u' w'} (row : SessionRow) : comparedHashes env email pass w = some true → w.Executes 2 →
      w'.db.sessions = w.db.sessions ++ [row] → Checked env u email pass w (.ok (true, u') w')

/-- `create_session` of a user. -/
theorem createSession_made (env : Env) (u : User) (w : World) :
    ∃ res, Made w res ∧ u.createSession env w =
      match res with
      | .ok s w' => .ok { u with currentSession := s } w'
      | .error e w' => .error e w' := by
  refine ⟨_, sessionCreate_made env u.id w, ?_⟩
  rw [User.createSession, bind_apply]
  cases Session.create env u.id w <;> rfl

/-- A login with a user that there is. -/
theorem logIn_checked {env : Env} {u : User} {email pass : Bytes} {row : UserRow} {w : World} (hrow : row ∈ w.db.users)
    (hf : w.fault = none) (hc : comparedHashes env email pass w = some true) :
    Checked env u email pass w (u.logIn env row.id w.next) := by
  rw [User.logIn]
  cases hf' : w.next.fault with
  | some f =>
    have hno : ¬ w.Executes 2 := by simp [World.Executes, hf']
    obtain ⟨e, he⟩ := select_error (fun v => v.db.users.filter (·.id = row.id)) hf'
    have hfill : u.fillById row.id w.next = .error e w.next.next := bind_error he
    rw [bind_error hfill]
    exact .failed (fun _ => hno) (by simp [hc]) rfl
  | none =>
    have hfound : row ∈ w.db.users.filter (·.id = row.id) := by simp [hrow]
    obtain ⟨r, hr⟩ := Option.isSome_iff_exists.mp (List.isSome_head?.mpr (List.ne_nil_of_mem hfound))
    have hfill : u.fillById row.id w.next = .ok { u with id := row.id, emailAddress := r.email } w.next.next :=
      fillById_ok_iff.mpr ⟨hf', r, hr, rfl, rfl⟩
    obtain ⟨res, hmade, hcreate⟩ := createSession_made env { u with id := row.id, emailAddress := r.email } w.next.next
    rw [bind_ok hfill, bind_apply, hcreate]
    cases hmade with
    | refused hno hsame => exact .failed (fun _ he => hno he.2.2) (by simp [hc]) hsame
    | stranded s he _ hadd => exact .stranded s hc ⟨hf, hf', he⟩ hadd
    | made s hsound hadd _ =>
      have hexec : w.next.next.Executes 0 := (hsound.mono (by omega : 0 + 1 ≤ 2)).executes
      exact .passed s hc ⟨hf, hf', hexec⟩ hadd

theorem authenticate_checked (env : Env) (u : User) (email pass : Bytes) (w : World) :
    Checked env u email pass w (u.authenticate env email pass w) := by
  rw [User.authenticate]
  cases hf : w.fault with
  | some f =>
    have hno : ¬ w.Executes 2 := by simp [World.Executes, hf]
    obtain ⟨e, he⟩ := select_error (fun v => v.db.users.filter (·.email = email)) hf
    rw [bind_error he]
    exact .failed (fun _ => hno) (fun _ => by simp [hf]) rfl
  | none =>
    have hselect : select (fun v => v.db.users.filter (·.email = email)) w = .ok (usersByEmail email w) w.next :=
      select_ok hf
    rw [bind_ok hselect]
    cases hrows : usersByEmail email w with
    | nil =>
      have hc : comparedHashes env email pass w = none := by simp [comparedHashes, hrows]
      exact .failed (by simp [hc]) (by simp [hc]) rfl
    | cons row rest =>
      have hmem : row ∈ w.db.users := (List.mem_filter.mp (hrows ▸ List.Mem.head rest : row ∈ usersByEmail email w)).1
      rw [bind_ok (rfl : firstRow noRowLeft (row :: rest) w.next = .ok row w.next)]
      cases ht : env.pbkdf2 pass row.nacl with
      | none =>
        have hc : comparedHashes env email pass w = none := by simp [comparedHashes, hrows, ht]
        exact .failed (by simp [hc]) (by simp [hc]) rfl
      | some testHash =>
        have hc : comparedHashes env email pass w =
            some (strcmpEq (row.hash.val ++ env.afterHash) (testHash.val ++ env.afterTestHash)) := by
          simp [comparedHashes, hrows, ht]
        simp only
        split
        next h => exact logIn_checked hmem hf (hc.trans (congrArg some h))
        next h => exact .denied (hc.trans (congrArg some (Bool.eq_false_iff.mpr h))) hf

/-- A login creates sessions of its user, and returns them. -/
theorem logIn_addedFor (env : Env) (u : User) (owner : Int) (start : Tables) :
    Alike (Diag fun w => AddedFor owner start w.db) (u.logIn env owner) fun p => p.2.id = owner := by
  have hdriven : Driven (Diag fun w => AddedFor owner start w.db) := diag_driven fun _ h => h
  have hfill : Alike (Diag fun w => AddedFor owner start w.db) (u.fillById owner) fun u => u.id = owner :=
    .bind (select_alike hdriven fun w v h => by rw [h.1]) fun rows _ =>
      .bind (firstRow_alike _ rows) fun _ _ => .pure rfl
  refine .bind hfill fun u hu => ?_
  have hcreate : Alike (Diag fun w => AddedFor owner start w.db) (u.createSession env) fun u' => u'.id = owner := by
    rw [User.createSession, hu]
    exact .bind (sessionCreate_addedFor env owner start) fun _ _ => .pure rfl
  exact .bind hcreate fun _ hu' => .pure hu'

/-- The sessions are those of the first user with the address, who is
returned. -/
theorem authenticate_addedFor {env : Env} {u : User} {email pass : Bytes} {w : World} {first : UserRow}
    (hfirst : (usersByEmail email w).head? = some first) :
    AddedFor first.id w.db (left (u.authenticate env email pass w)).db ∧
      ∀ u' w', u.authenticate env email pass w = .ok (true, u') w' → u'.id = first.id := by
  obtain ⟨rest, hrows⟩ := List.head?_eq_some_iff.mp hfirst
  rw [User.authenticate]
  cases hf : w.fault with
  | some f =>
    obtain ⟨e, he⟩ := select_error (fun v => v.db.users.filter (·.email = email)) hf
    rw [bind_error he]
    exact ⟨.refl _ _, fun _ _ h => nomatch h⟩
  | none =>
    have hselect : select (fun v => v.db.users.filter (·.email = email)) w = .ok (first :: rest) w.next := by
      rw [← hrows]
      exact select_ok hf
    rw [bind_ok hselect, bind_ok (rfl : firstRow noRowLeft (first :: rest) w.next = .ok first w.next)]
    cases env.pbkdf2 pass first.nacl with
    | none => exact ⟨.refl _ _, fun _ _ h => (throw_ok_iff.mp h).elim⟩
    | some testHash =>
      simp only
      split
      · have hlogin := logIn_addedFor env u first.id w.db
        exact ⟨hlogin.kept (s := w.next) (.refl _ _), fun u' w' h => hlogin.returned (s := w.next) (.refl _ _) h⟩
      · exact ⟨.refl _ _, fun _ _ h => nomatch (pure_ok_iff.mp h).1⟩

/-- The world once a user is inserted. -/
def withUser (env : Env) (email : Bytes) (hash : Block) (w : World) : World :=
  insertUser email hash (env.random w.draws) { w with draws := w.draws + 1, faults := w.faults.tail }

/-- What becomes of `create`: it ends as the check does, if it comes to it. -/
inductive SignedUp (env : Env) (u : User) (email pass : Bytes) (w : World) : EStateM.Result Exn World User → Prop
  | failed {e w'} : (∀ hash, env.pbkdf2 pass (env.random w.draws) = some hash → w.fault ≠ none) →
      w'.db.sessions = w.db.sessions → SignedUp env u email pass w (.error e w')
  | error {hash e w'} : env.pbkdf2 pass (env.random w.draws) = some hash → w.fault = none →
      Checked env u email pass (withUser env email hash w) (.error e w') → SignedUp env u email pass w (.error e w')
  | ok {hash b u' w'} : env.pbkdf2 pass (env.random w.draws) = some hash → w.fault = none →
      Checked env u email pass (withUser env email hash w) (.ok (b, u') w') → SignedUp env u email pass w (.ok u' w')

/-- Once the user is inserted, `create` is the check. -/
theorem create_inserted {env : Env} {pass : Bytes} {w : World} {hash : Block}
    (hp : env.pbkdf2 pass (env.random w.draws) = some hash) (hf : w.fault = none) (u : User) (email : Bytes) :
    u.create env email pass w = (u.authenticate env email pass >>= fun p => pure p.2) (withUser env email hash w) := by
  have hsalt : randBytes env w = .ok (env.random w.draws) { w with draws := w.draws + 1 } := rfl
  have hinsert : execute (insertUser email hash (env.random w.draws)) { w with draws := w.draws + 1 } =
      .ok () (withUser env email hash w) := execute_ok_iff.mpr ⟨hf, rfl⟩
  rw [User.create, bind_ok hsalt, hp]
  exact bind_ok hinsert

theorem create_signedUp (env : Env) (u : User) (email pass : Bytes) (w : World) :
    SignedUp env u email pass w (u.create env email pass w) := by
  have hsalt : randBytes env w = .ok (env.random w.draws) { w with draws := w.draws + 1 } := rfl
  cases hp : env.pbkdf2 pass (env.random w.draws) with
  | none =>
    rw [User.create, bind_ok hsalt, hp]
    exact .failed (by simp [hp]) rfl
  | some hash =>
    cases hf : w.fault with
    | some f =>
      have hinsert : ∃ e w', execute (insertUser email hash (env.random w.draws)) { w with draws := w.draws + 1 } =
          .error e w' ∧ w'.db.sessions = w.db.sessions := by
        have hfault : ({ w with draws := w.draws + 1 } : World).fault = some f := hf
        rw [execute, statement, hfault]
        cases f <;> exact ⟨_, _, rfl, rfl⟩
      obtain ⟨e, w', he, hsame⟩ := hinsert
      rw [User.create, bind_ok hsalt, hp]
      simp only
      rw [bind_error he]
      exact .failed (fun _ _ => by simp [hf]) hsame
    | none =>
      have hchecked := authenticate_checked env u email pass (withUser env email hash w)
      rw [create_inserted hp hf, bind_apply]
      generalize u.authenticate env email pass (withUser env email hash w) = res at hchecked
      cases res with
      | error e w' => exact .error hp hf hchecked
      | ok p w' =>
        obtain ⟨b, u'⟩ := p
        exact .ok hp hf hchecked

/-- A user is filled in by an address that there is. -/
theorem fillByEmail_apply (u : User) (email : Bytes) (w : World) :
    (∃ e, u.fillByEmail email w = .error e w.next ∧ ((usersByEmail email w).head?.isSome → w.fault ≠ none)) ∨
      w.fault = none ∧ ∃ row, (usersByEmail email w).head? = some row ∧
        u.fillByEmail email w = .ok { u with id := row.id, emailAddress := email } w.next := by
  rw [User.fillByEmail]
  cases hf : w.fault with
  | some f =>
    obtain ⟨e, he⟩ := select_error (fun v => v.db.users.filter (·.email = email)) hf
    exact .inl ⟨e, bind_error he, fun _ => by simp⟩
  | none =>
    have hselect : select (fun v => v.db.users.filter (·.email = email)) w = .ok (usersByEmail email w) w.next :=
      select_ok hf
    rw [bind_ok hselect]
    cases usersByEmail email w with
    | nil => exact .inl ⟨_, rfl, by simp⟩
    | cons row rest => exact .inr ⟨rfl, row, rfl, rfl⟩

/-- The block `0, 1, 1, ...`. -/
def zeroThenOnes : Block := ⟨0 :: List.replicate 127 1, rfl⟩

/-- An address nobody has is not answered with `false`; and where a hash
starts with a zero byte, any other that does is taken for it. -/
theorem authenticate_misjudges :
    ¬ DecidesPassword plainEnv (.new plainEnv) (text "a@b") (text "secret") {} ∧
    ¬ DecidesPassword { plainEnv with pbkdf2 := fun _ _ => some zeroThenOnes } (.new plainEnv) (text "a@b") (text "wrong")
        { db := { users := [{ id := 1, email := text "a@b", hash := repeated 0, nacl := repeated 1 }] } } := by
  constructor
  · intro h
    obtain ⟨u', w', h, -⟩ := h
    obtain ⟨-, row, hrow, -⟩ := authenticate_ok_iff.mp h
    cases hrow
  · intro h
    have hcmp := ((authenticate_answers_iff rfl rfl _).mp h).1
    revert hcmp
    decide

end AudioToolApi
