/-
The two look-ups of a session by its token: `session::lookup` and
`user_model::fill_by_token`. The first binds its statement to the token that
the object already holds, not to the one it is asked for, and then gives the
row it found the token it was asked for. `lookUps_agree_iff` says when that
makes no difference.
-/
import AudioToolApi.Http.GateFacts

namespace AudioToolApi

open Effects

/-! ## `session::lookup`, on its object -/

/-- The object that `lookup` is called on, and the world. -/
structure SessionObject where
  session : Session
  world : World

/-- A call that does not touch the object. -/
def besideSession {α : Type} (x : Act α) : EStateM Exn SessionObject α := fun o =>
  match x o.world with
  | .ok a world => .ok a { o with world }
  | .error e world => .error e { o with world }

/-- One assignment after the other: what an exception leaves behind is the
object as far as it got. -/
def SessionObject.lookup (token : Bytes) : EStateM Exn SessionObject Unit := do
  let rows ← besideSession (select (liveSessions (← get).session.token))
  let results ← besideSession (firstRow (text "No sessions found for this token") rows)
  modify fun o => { o with session := { o.session with created := results.created } }
  modify fun o => { o with session := { o.session with expires := results.expires } }
  modify fun o => { o with session := { o.session with userId := results.userId } }
  modify fun o => { o with session := { o.session with token } }

/-- It is `Session.lookup`, all of whose assignments come last. -/
theorem sessionObject_lookup (token : Bytes) (o : SessionObject) :
    SessionObject.lookup token o =
      (besideSession (o.session.lookup token) >>= fun session => modify fun o => { o with session }) o := by
  have hstart : SessionObject.lookup token o =
      (besideSession (select (liveSessions o.session.token)) >>= fun rows =>
        besideSession (firstRow (text "No sessions found for this token") rows) >>= fun results => do
          modify fun o => { o with session := { o.session with created := results.created } }
          modify fun o => { o with session := { o.session with expires := results.expires } }
          modify fun o => { o with session := { o.session with userId := results.userId } }
          modify fun o => { o with session := { o.session with token } }) o := rfl
  rw [hstart, Session.lookup, bind_apply, bind_apply, besideSession, besideSession, bind_apply]
  cases select (liveSessions o.session.token) o.world with
  | error e w => rfl
  | ok rows w => cases rows <;> rfl

/-! ## What each of them selects -/

/-- The row that a look-up of the token reads. -/
def firstLive (token : Bytes) (w : World) : Option SessionRow := (liveSessions token w).head?

/-- What the two look-ups copy from a row. -/
def SessionRow.copied (r : SessionRow) : Int × Int × Int := (r.expires, r.created, r.userId)

theorem sessionLookup_ok_iff {s s' : Session} {token : Bytes} {w w' : World} :
    s.lookup token w = .ok s' w' ↔
      w.fault = none ∧ ∃ row, firstLive s.token w = some row ∧
        { token, created := row.created, expires := row.expires, userId := row.userId } = s' ∧ w.next = w' := by
  simp only [Session.lookup, selectRow_ok_iff, pure_ok_iff]
  exact Iff.rfl

/-- The user that the first live session with the token is of. -/
def OwnerExists (token : Bytes) (w : World) : Prop :=
  ∀ row, firstLive token w = some row → ∃ owner ∈ w.db.users, owner.id = row.userId

theorem tokenOwner_iff {token : Bytes} {w : World} {row : SessionRow} (ho : OwnerExists token w) :
    (∃ owner, tokenOwner token w = some (row, owner)) ↔ firstLive token w = some row := by
  rw [firstLive]
  cases hl : liveSessions token w with
  | nil => simp [tokenOwner_nil hl]
  | cons first rest =>
    obtain ⟨owner, howner, hid⟩ := ho first (by rw [firstLive, hl]; rfl)
    have hmem : owner ∈ w.db.users.filter (·.id = first.userId) :=
      List.mem_filter.mpr ⟨howner, decide_eq_true hid⟩
    obtain ⟨o, hhead⟩ := Option.isSome_iff_exists.mp (List.isSome_head?.mpr (List.ne_nil_of_mem hmem))
    simp [tokenOwner_cons hl, hhead]

theorem fillByToken_ok_iff {u u' : User} {token : Bytes} {w w' : World} :
    u.fillByToken token w = .ok u' w' ↔
      w.Sound 2 ∧ ∃ row owner, tokenOwner token w = some (row, owner) ∧ sessionUser token row owner = u' ∧
        w.next.next = w' := by
  have hlookup := fillByToken_lookup u token w
  generalize u.fillByToken token w = res at hlookup
  cases hlookup with
  | @found row owner hs ho =>
    constructor
    · intro h
      cases h
      exact ⟨hs, row, owner, ho, rfl, rfl⟩
    · intro ⟨_, row', owner', ho', hu, hw⟩
      cases ho.symm.trans ho'
      rw [hu, hw]
  | failed hno _ _ =>
    refine iff_of_false (fun h => nomatch h) fun ⟨hs, row, owner, ho, _⟩ => hno ⟨hs, ?_⟩
    rw [ho]
    rfl
  | hung htold => exact iff_of_false (fun h => nomatch h) fun ⟨hs, _⟩ => htold (.of_sound hs)
/-! ## Whether they agree -/

/-- They return for the same tokens, and then with the same session; an
exception of `lookup` leaves its object as it was. -/
structure LookUpsAgree (s : Session) (u : User) (token : Bytes) (w : World) : Prop where
  returns : (∃ o, SessionObject.lookup token { session := s, world := w } = .ok () o) ↔
    ∃ u' w', u.fillByToken token w = .ok u' w'
  same : ∀ o u' w', SessionObject.lookup token { session := s, world := w } = .ok () o →
    u.fillByToken token w = .ok u' w' → o.session = u'.currentSession
  kept : ∀ e o, SessionObject.lookup token { session := s, world := w } = .error e o → o.session = s

/-- Where the driver takes both statements, the object's own token selects
what the token does; where it does not, `lookup` finds nothing either. -/
def OwnTokenServes (s : Session) (token : Bytes) (w : World) : Prop :=
  (w.Sound 2 → (firstLive s.token w).map SessionRow.copied = (firstLive token w).map SessionRow.copied) ∧
    (¬ w.Sound 2 → w.fault = none → firstLive s.token w = none)

variable {s : Session} {u : User} {token : Bytes} {w : World}

theorem lookupObject_ok_iff {o : SessionObject} :
    SessionObject.lookup token { session := s, world := w } = .ok () o ↔ s.lookup token w = .ok o.session o.world := by
  rw [sessionObject_lookup, bind_apply, besideSession]
  cases s.lookup token w with
  | error e w' => exact iff_of_false (fun h => nomatch h) (fun h => nomatch h)
  | ok s' w' =>
    constructor
    · intro h
      cases h
      rfl
    · intro h
      cases h
      rfl

theorem lookupObject_error {e : Exn} {o : SessionObject}
    (h : SessionObject.lookup token { session := s, world := w } = .error e o) : o.session = s := by
  rw [sessionObject_lookup, bind_apply, besideSession] at h
  cases hres : s.lookup token w with
  | error e' w' =>
    simp only [hres] at h
    cases h
    rfl
  | ok s' w' =>
    simp only [hres] at h
    cases h

theorem lookup_returns_iff :
    (∃ o, SessionObject.lookup token { session := s, world := w } = .ok () o) ↔
      w.fault = none ∧ (firstLive s.token w).isSome := by
  simp only [lookupObject_ok_iff, Option.isSome_iff_exists]
  constructor
  · intro ⟨o, h⟩
    obtain ⟨hf, row, hrow, -⟩ := sessionLookup_ok_iff.mp h
    exact ⟨hf, row, hrow⟩
  · intro ⟨hf, row, hrow⟩
    exact ⟨⟨_, _⟩, sessionLookup_ok_iff.mpr ⟨hf, row, hrow, rfl, rfl⟩⟩

theorem fillByToken_returns_iff (ho : OwnerExists token w) :
    (∃ u' w', u.fillByToken token w = .ok u' w') ↔ w.Sound 2 ∧ (firstLive token w).isSome := by
  simp only [fillByToken_ok_iff, Option.isSome_iff_exists]
  constructor
  · intro ⟨_, _, hs, row, owner, howner, _⟩
    exact ⟨hs, row, (tokenOwner_iff ho).mp ⟨owner, howner⟩⟩
  · intro ⟨hs, row, hrow⟩
    obtain ⟨owner, howner⟩ := (tokenOwner_iff ho).mpr hrow
    exact ⟨_, _, hs, row, owner, howner, rfl, rfl⟩

/-- What the two have read, where both return. -/
theorem lookUps_read {o : SessionObject} {u' : User} {w' : World} (ho : OwnerExists token w)
    (hl : SessionObject.lookup token { session := s, world := w } = .ok () o)
    (hf : u.fillByToken token w = .ok u' w') :
    o.session = u'.currentSession ↔
      (firstLive s.token w).map SessionRow.copied = (firstLive token w).map SessionRow.copied := by
  obtain ⟨-, row, hrow, hsession, -⟩ := sessionLookup_ok_iff.mp (lookupObject_ok_iff.mp hl)
  obtain ⟨-, row', owner, howner, rfl, -⟩ := fillByToken_ok_iff.mp hf
  rw [hrow, (tokenOwner_iff ho).mp ⟨owner, howner⟩, ← hsession]
  simp only [sessionUser, SessionRow.copied, Option.map_some, Option.some.injEq, Prod.mk.injEq, Session.mk.injEq,
    true_and]

/-- **The two look-ups agree exactly when** the token that the object already
holds selects a row with the same `user_id`, `created` and `expires` as the
token it is asked for, or neither selects any. -/
theorem lookUps_agree_iff (s : Session) (u : User) (token : Bytes) (w : World) (ho : OwnerExists token w) :
    LookUpsAgree s u token w ↔ OwnTokenServes s token w := by
  have hlookup := @lookup_returns_iff s token w
  have hfill := @fillByToken_returns_iff u token w ho
  constructor
  · intro h
    have hreturns := hlookup.symm.trans (h.returns.trans hfill)
    refine ⟨fun hs => ?_, fun hns hf => ?_⟩
    · have hf := (World.sound_succ.mp hs).1
      have hsome : (firstLive s.token w).isSome ↔ (firstLive token w).isSome := by simpa [hf, hs] using hreturns
      cases hown : firstLive s.token w with
      | none =>
        rw [hown] at hsome
        rw [Option.not_isSome_iff_eq_none.mp (mt hsome.mpr (by simp))]
      | some row =>
        rw [hown] at hsome
        obtain ⟨o, hl⟩ := hlookup.mpr ⟨hf, by rw [hown]; rfl⟩
        obtain ⟨u', w', hu⟩ := hfill.mpr ⟨hs, hsome.mp rfl⟩
        rw [← hown]
        exact (lookUps_read ho hl hu).mp (h.same o u' w' hl hu)
    · have hno : ¬ (firstLive s.token w).isSome := by simpa [hf, hns] using hreturns
      exact Option.not_isSome_iff_eq_none.mp hno
  · intro ⟨hsound, hunsound⟩
    refine ⟨hlookup.trans (Iff.trans ?_ hfill.symm), fun o u' w' hl hu => ?_, fun e o => lookupObject_error⟩
    · by_cases hs : w.Sound 2
      · have hsame := congrArg Option.isSome (hsound hs)
        rw [Option.isSome_map, Option.isSome_map] at hsame
        rw [hsame, and_iff_right hs, and_iff_right (World.sound_succ.mp hs).1]
      · refine iff_of_false (fun ⟨hf, hsome⟩ => ?_) fun h => hs h.1
        rw [hunsound hs hf] at hsome
        cases hsome
    · obtain ⟨hs, -⟩ := fillByToken_ok_iff.mp hu
      exact (lookUps_read ho hl hu).mpr (hsound hs)

/-- Two live sessions, each of its own user. -/
def twoSessions : World where
  db := {
    users := [{ id := 1, email := text "a@b", hash := repeated 1, nacl := repeated 0 },
      { id := 2, email := text "c@d", hash := repeated 1, nacl := repeated 0 }]
    sessions := [{ id := 1, userId := 1, token := text "t", created := 0, expires := 3600 },
      { id := 2, userId := 2, token := text "o", created := 0, expires := 3600 }] }

theorem twoSessions_owner : OwnerExists (text "t") twoSessions := by
  intro row hrow
  have hfirst : firstLive (text "t") twoSessions =
      some { id := 1, userId := 1, token := text "t", created := 0, expires := 3600 } := by
    decide
  cases hfirst.symm.trans hrow
  exact ⟨_, .head _, rfl⟩

/-- The object was filled by the same token before. -/
theorem lookUps_agree_own :
    LookUpsAgree { token := text "t", expires := 0, created := 0, userId := 0 } (.new plainEnv) (text "t") twoSessions :=
  (lookUps_agree_iff _ _ _ _ twoSessions_owner).mpr ⟨fun _ => rfl, fun hns => absurd nofun hns⟩

/-- A fresh object finds no session. One that holds another token finds the
session of the other user, and calls it the one asked for. -/
theorem lookup_by_own_token :
    (¬ ∃ o, SessionObject.lookup (text "t") { session := .new plainEnv, world := twoSessions } = .ok () o) ∧
      SessionObject.lookup (text "t")
          { session := { token := text "o", expires := 0, created := 0, userId := 0 }, world := twoSessions } =
        .ok () { session := { token := text "t", expires := 3600, created := 0, userId := 2 }, world := twoSessions } ∧
      ¬ LookUpsAgree (.new plainEnv) (.new plainEnv) (text "t") twoSessions ∧
      ¬ LookUpsAgree { token := text "o", expires := 0, created := 0, userId := 0 } (.new plainEnv) (text "t")
        twoSessions := by
  have hasked : firstLive (text "t") twoSessions =
      some { id := 1, userId := 1, token := text "t", created := 0, expires := 3600 } := by
    decide
  have hother : firstLive (text "o") twoSessions =
      some { id := 2, userId := 2, token := text "o", created := 0, expires := 3600 } := by
    decide
  have hfresh : firstLive (Session.new plainEnv).token twoSessions = none := by decide
  have hfill : ∃ u' w', (User.new plainEnv).fillByToken (text "t") twoSessions = .ok u' w' :=
    (fillByToken_returns_iff twoSessions_owner).mpr ⟨nofun, by rw [hasked]; rfl⟩
  have hnone : ¬ ∃ o,
      SessionObject.lookup (text "t") { session := .new plainEnv, world := twoSessions } = .ok () o := by
    intro h
    have hsome := (lookup_returns_iff.mp h).2
    rw [hfresh] at hsome
    cases hsome
  have hstolen : SessionObject.lookup (text "t")
        { session := { token := text "o", expires := 0, created := 0, userId := 0 }, world := twoSessions } =
      .ok () { session := { token := text "t", expires := 3600, created := 0, userId := 2 }, world := twoSessions } :=
    lookupObject_ok_iff.mpr (sessionLookup_ok_iff.mpr ⟨rfl, _, hother, rfl, rfl⟩)
  refine ⟨hnone, hstolen, fun h => hnone (h.returns.mpr hfill), fun h => ?_⟩
  obtain ⟨u', w', hu⟩ := hfill
  have hsame := (lookUps_read twoSessions_owner hstolen hu).mp (h.same _ u' w' hstolen hu)
  rw [hother, hasked] at hsame
  cases hsame

end AudioToolApi
