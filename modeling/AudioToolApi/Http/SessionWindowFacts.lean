/-
Sessions follow the sliding window. The invariant (`Agrees`) reads the table
of sessions off the history: one row for each session that was created, which
expires one session length after its last use.
-/
import AudioToolApi.Http.ProcessFacts
import AudioToolApi.Http.SessionWindow

namespace AudioToolApi

open Effects

/-! ## Histories -/

/-- Token, user and time of the sessions that were created. -/
def creations (history : List Entry) : List (Bytes × Int × Int) :=
  history.filterMap fun
    | .created token userId time => some (token, userId, time)
    | .accepted .. => none

theorem mem_creations {history : List Entry} {token : Bytes} {userId time : Int} :
    (token, userId, time) ∈ creations history ↔ .created token userId time ∈ history := by
  rw [creations, List.mem_filterMap]
  constructor
  · intro h
    obtain ⟨e, he, h⟩ := h
    cases e with
    | created t u s =>
      cases h
      exact he
    | accepted t s => cases h
  · intro h
    exact ⟨_, h, rfl⟩

/-- The last use of a token that was created at `t0`. -/
def lastUse (token : Bytes) (t0 : Int) (history : List Entry) : Int := (usesOf token history).getLast?.getD t0

/-- A use less than a session length after the last one keeps the gaps small. -/
theorem isChain_use (token : Bytes) (t0 now : Int) (history : List Entry) :
    (t0 :: usesOf token history ++ [now]).IsChain (fun s t => t - s < sessionLength) ↔
      (t0 :: usesOf token history).IsChain (fun s t => t - s < sessionLength) ∧
        now - lastUse token t0 history < sessionLength := by
  rw [List.isChain_append]
  simp [List.getLast?_cons, lastUse]

theorem inWindow_iff {history : List Entry} {token : Bytes} {userId now : Int}
    (hchain : ∀ t0, .created token userId t0 ∈ history →
      t0 ≤ now ∧ (t0 :: usesOf token history).IsChain fun s t => t - s < sessionLength) :
    InWindow history token userId now ↔
      ∃ t0, .created token userId t0 ∈ history ∧ now - lastUse token t0 history < sessionLength := by
  constructor
  · intro h
    obtain ⟨t0, -, hc, h⟩ := h
    exact ⟨t0, hc, ((isChain_use ..).mp h).2⟩
  · intro h
    obtain ⟨t0, hc, h⟩ := h
    exact ⟨t0, (hchain t0 hc).1, hc, (isChain_use ..).mpr ⟨(hchain t0 hc).2, h⟩⟩

/-! ## The invariant -/

/-- What the history says of a session: its row, but for the id. -/
def SessionRow.facts (row : SessionRow) : (Bytes × Int × Int) × Int := ((row.token, row.userId, row.created), row.expires)

/-- One row for each session, in order; its expiry is one session length after
its last use. -/
structure Agrees (env : Env) (users : List UserRow) (w : World) (history : List Entry) : Prop where
  sameUsers : w.db.users = users
  rows : w.db.sessions.map SessionRow.facts =
    (creations history).map fun c => (c, lastUse c.1 c.2.2 history + sessionLength)
  drawn : ∀ c ∈ creations history, ∃ k < w.draws, c.1 = base64Encode (env.random k)
  distinct : ((creations history).map Prod.fst).Nodup
  owned : ∀ c ∈ creations history, ∃ row ∈ users, row.id = c.2.1
  used : ∀ token, usesOf token history ≠ [] → ∃ c ∈ creations history, c.1 = token
  window : ∀ c ∈ creations history, c.2.2 ≤ w.now ∧
    (c.2.2 :: usesOf c.1 history).IsChain fun s t => t - s < sessionLength

section

variable {env : Env} {users : List UserRow} {w : World} {history : List Entry}

theorem agrees_empty (h : w.db.sessions = []) : Agrees env w.db.users w [] where
  sameUsers := rfl
  rows := by rw [h]; rfl
  drawn := nofun
  distinct := List.nodup_nil
  owned := nofun
  used _ h := absurd rfl h
  window := nofun

theorem Agrees.tick (h : Agrees env users w history) (seconds : Nat) :
    Agrees env users { w with now := w.now + seconds } history where
  sameUsers := h.sameUsers
  rows := h.rows
  drawn := h.drawn
  distinct := h.distinct
  owned := h.owned
  used := h.used
  window c hc := by
    obtain ⟨hpast, hchain⟩ := h.window c hc
    refine ⟨?_, hchain⟩
    show c.2.2 ≤ w.now + seconds
    omega

/-! ## A session is created -/

theorem create_step (env : Env) (w : World) (userId : Int) :
    (Event.create userId).step env w = (withSession env userId w.settled).next ∧
      (Event.create userId).entries env w = [.created (nextToken env w) userId w.now] := by
  have hsound : w.settled.Sound 2 := nofun
  obtain ⟨s, w', h⟩ := sessionCreate_returns_iff.mpr hsound
  obtain ⟨-, rfl, row, -, rfl⟩ := sessionCreate_ok_iff.mp h
  rw [Event.step, Event.entries, h]
  exact ⟨rfl, rfl⟩

theorem creations_append (history more : List Entry) :
    creations (history ++ more) = creations history ++ creations more := List.filterMap_append ..

theorem usesOf_append (token : Bytes) (history more : List Entry) :
    usesOf token (history ++ more) = usesOf token history ++ usesOf token more := List.filterMap_append ..

/-- The next token is new. -/
theorem Agrees.nextToken_new (h : Agrees env users w history) (hd : DistinctTokens env (w.draws + 1)) :
    ∀ c ∈ creations history, c.1 ≠ nextToken env w := by
  intro c hc he
  obtain ⟨k, hk, htoken⟩ := h.drawn c hc
  have := hd k w.draws (by omega) (by omega) (htoken.symm.trans he)
  omega

theorem Agrees.create (h : Agrees env users w history) (hd : DistinctTokens env (w.draws + 1)) {userId : Int}
    (huser : ∃ row ∈ users, row.id = userId) :
    Agrees env users ((Event.create userId).step env w) (history ++ (Event.create userId).entries env w) := by
  obtain ⟨hstep, hentries⟩ := create_step env w userId
  have hnew := h.nextToken_new hd
  have huses : ∀ token, usesOf token (history ++ [.created (nextToken env w) userId w.now]) = usesOf token history := by
    intro token
    rw [usesOf_append]
    exact List.append_nil _
  have hunused : usesOf (nextToken env w) history = [] := by
    by_contra hne
    obtain ⟨c, hc, htoken⟩ := h.used _ hne
    exact hnew c hc htoken
  have hcreations : creations (history ++ [.created (nextToken env w) userId w.now]) =
      creations history ++ [(nextToken env w, userId, w.now)] := creations_append ..
  rw [hstep, hentries]
  constructor
  case sameUsers => exact h.sameUsers
  case rows =>
    have hlast : ∀ c : Bytes × Int × Int, lastUse c.1 c.2.2 (history ++ [.created (nextToken env w) userId w.now]) =
        lastUse c.1 c.2.2 history := fun c => by rw [lastUse, huses, lastUse]
    simp only [hcreations, hlast, List.map_append, ← h.rows]
    have hrow : lastUse (nextToken env w) w.now history = w.now := by rw [lastUse, hunused]; rfl
    rw [List.map_singleton, hrow]
    exact List.map_append
  case drawn =>
    intro c hc
    rw [hcreations, List.mem_append, List.mem_singleton] at hc
    rcases hc with hc | rfl
    · obtain ⟨k, hk, htoken⟩ := h.drawn c hc
      exact ⟨k, Nat.lt_succ_of_lt hk, htoken⟩
    · exact ⟨w.draws, Nat.lt_succ_self _, rfl⟩
  case distinct =>
    rw [hcreations, List.map_append, List.nodup_append]
    refine ⟨h.distinct, List.nodup_singleton _, ?_⟩
    intro token htoken token' htoken'
    obtain ⟨c, hc, rfl⟩ := List.mem_map.mp htoken
    cases List.mem_singleton.mp htoken'
    exact hnew c hc
  case owned =>
    intro c hc
    rw [hcreations, List.mem_append, List.mem_singleton] at hc
    rcases hc with hc | rfl
    · exact h.owned c hc
    · exact huser
  case used =>
    intro token hne
    rw [huses] at hne
    obtain ⟨c, hc, htoken⟩ := h.used token hne
    exact ⟨c, by rw [hcreations]; exact List.mem_append_left _ hc, htoken⟩
  case window =>
    intro c hc
    rw [hcreations, List.mem_append, List.mem_singleton] at hc
    rw [huses]
    rcases hc with hc | rfl
    · exact h.window c hc
    · rw [hunused]
      exact ⟨Int.le_refl _, List.isChain_singleton _⟩

/-! ## A token is used -/

/-- A row of the table is a session of the history. -/
theorem Agrees.mem_rows (h : Agrees env users w history) {row : SessionRow} (hrow : row ∈ w.db.sessions) :
    (row.token, row.userId, row.created) ∈ creations history ∧
      row.expires = lastUse row.token row.created history + sessionLength := by
  have hmem : row.facts ∈ w.db.sessions.map SessionRow.facts := List.mem_map_of_mem hrow
  rw [h.rows] at hmem
  obtain ⟨c, hc, heq⟩ := List.mem_map.mp hmem
  obtain ⟨rfl, hexpires⟩ := Prod.mk.inj heq
  exact ⟨hc, hexpires.symm⟩

/-- A session of the history has its row. -/
theorem Agrees.exists_row (h : Agrees env users w history) {c : Bytes × Int × Int} (hc : c ∈ creations history) :
    ∃ row ∈ w.db.sessions, row.facts = (c, lastUse c.1 c.2.2 history + sessionLength) := by
  have hmem : (c, lastUse c.1 c.2.2 history + sessionLength) ∈ w.db.sessions.map SessionRow.facts := by
    rw [h.rows]
    exact List.mem_map_of_mem hc
  exact List.mem_map.mp hmem

/-- There is one session with a token. -/
theorem Agrees.same_session (h : Agrees env users w history) {c c' : Bytes × Int × Int} (hc : c ∈ creations history)
    (hc' : c' ∈ creations history) (htoken : c.1 = c'.1) : c = c' :=
  List.inj_on_of_nodup_map h.distinct hc hc' htoken

theorem mem_liveSessions {token : Bytes} {row : SessionRow} :
    row ∈ liveSessions token w ↔ row ∈ w.db.sessions ∧ row.token = token ∧ w.now < row.expires := by
  rw [liveSessions, List.mem_filter, decide_eq_true_eq]

theorem tokenOwner_some {token : Bytes} {row : SessionRow} {owner : UserRow}
    (ho : tokenOwner token w = some (row, owner)) : row ∈ liveSessions token w := by
  cases hl : liveSessions token w with
  | nil =>
    rw [tokenOwner_nil hl] at ho
    cases ho
  | cons first rest =>
    rw [tokenOwner_cons hl] at ho
    obtain ⟨_, _, heq⟩ := Option.map_eq_some_iff.mp ho
    cases heq
    exact .head _

/-- The gate knows the user of a token exactly when the last use of it is less
than a session length ago. -/
theorem Agrees.tokenOwner_iff (h : Agrees env users w history) {token : Bytes} {userId : Int} :
    (tokenOwner token w).map (·.1.userId) = some userId ↔
      ∃ t0, .created token userId t0 ∈ history ∧ w.now - lastUse token t0 history < sessionLength := by
  constructor
  · intro ho
    obtain ⟨⟨row, owner⟩, hsome, rfl⟩ := Option.map_eq_some_iff.mp ho
    obtain ⟨hrow, rfl, hlive⟩ := mem_liveSessions.mp (tokenOwner_some hsome)
    obtain ⟨hc, hexpires⟩ := h.mem_rows hrow
    exact ⟨row.created, mem_creations.mp hc, by omega⟩
  · intro h
    obtain ⟨t0, hc, hlast⟩ := h
    have hc := mem_creations.mpr hc
    obtain ⟨row, hrow, hfacts⟩ := h.exists_row hc
    obtain ⟨⟨rfl, rfl, rfl⟩, hexpires⟩ : (row.token = token ∧ row.userId = userId ∧ row.created = t0) ∧
        row.expires = lastUse token t0 history + sessionLength := by simpa [SessionRow.facts] using hfacts
    have hlive : row ∈ liveSessions row.token w := mem_liveSessions.mpr ⟨hrow, rfl, by omega⟩
    cases hl : liveSessions row.token w with
    | nil =>
      rw [hl] at hlive
      cases hlive
    | cons first rest =>
      obtain ⟨hfirst, htoken, -⟩ := mem_liveSessions.mp (hl ▸ List.Mem.head rest)
      obtain ⟨hcfirst, -⟩ := h.mem_rows hfirst
      have huser : first.userId = row.userId := congrArg (·.2.1) (h.same_session hcfirst hc htoken)
      obtain ⟨owner, howner, hid⟩ := h.owned _ hc
      have hmem : owner ∈ w.db.users.filter (·.id = first.userId) := by
        rw [h.sameUsers, List.mem_filter, huser]
        exact ⟨howner, decide_eq_true hid⟩
      obtain ⟨o, ho⟩ := Option.isSome_iff_exists.mp (List.isSome_head?.mpr (List.ne_nil_of_mem hmem))
      rw [tokenOwner_cons hl, ho, Option.map_some, Option.map_some, huser]

theorem lastUse_accepted (token : Bytes) (t0 now : Int) (history : List Entry) :
    lastUse token t0 (history ++ [.accepted token now]) = now := by
  rw [lastUse, usesOf_append]
  simp [usesOf]

theorem usesOf_accepted_ne {token token' : Bytes} (hne : token ≠ token') (now : Int) (history : List Entry) :
    usesOf token' (history ++ [.accepted token now]) = usesOf token' history := by
  rw [usesOf_append]
  simp [usesOf, hne]

/-- The refresh of the gate, and the use it stands for. -/
theorem Agrees.accept (h : Agrees env users w history) {token : Bytes} {row : SessionRow} {owner : UserRow}
    (ho : tokenOwner token w = some (row, owner)) :
    Agrees env users (refreshSessions token row.userId w) (history ++ [.accepted token w.now]) := by
  obtain ⟨hrow, rfl, hlive⟩ := mem_liveSessions.mp (tokenOwner_some ho)
  obtain ⟨hc, hexpires⟩ := h.mem_rows hrow
  have hgap : w.now - lastUse row.token row.created history < sessionLength := by omega
  have hcreations : creations (history ++ [.accepted row.token w.now]) = creations history := by
    rw [creations_append]
    exact List.append_nil _
  constructor
  case sameUsers => exact h.sameUsers
  case rows =>
    -- On both sides, what the token is the token of gets a new expiry.
    let touch (x : (Bytes × Int × Int) × Int) : (Bytes × Int × Int) × Int :=
      if x.1.1 = row.token then (x.1, w.now + sessionLength) else x
    have hrows : (refreshSessions row.token row.userId w).db.sessions.map SessionRow.facts =
        (w.db.sessions.map SessionRow.facts).map touch := by
      rw [refreshSessions, List.map_map, List.map_map]
      refine List.map_congr_left fun r hr => ?_
      by_cases ht : r.token = row.token
      · have hsame := h.same_session (h.mem_rows hr).1 hc ht
        have huser : r.userId = row.userId := congrArg (·.2.1) hsame
        simp [touch, SessionRow.facts, ht, huser]
      · simp [touch, SessionRow.facts, ht]
    rw [hrows, h.rows, hcreations, List.map_map]
    refine List.map_congr_left fun c hc' => ?_
    by_cases ht : c.1 = row.token
    · simp only [Function.comp, touch, ht, if_true, lastUse_accepted]
    · simp only [Function.comp, touch, ht, if_false, lastUse, usesOf_accepted_ne (Ne.symm ht)]
  case drawn =>
    rw [hcreations]
    exact h.drawn
  case distinct =>
    rw [hcreations]
    exact h.distinct
  case owned =>
    rw [hcreations]
    exact h.owned
  case used =>
    intro token hne
    rw [hcreations]
    by_cases ht : row.token = token
    · exact ⟨_, hc, ht⟩
    · rw [usesOf_accepted_ne ht] at hne
      exact h.used token hne
  case window =>
    intro c hc'
    rw [hcreations] at hc'
    obtain ⟨hpast, hchain⟩ := h.window c hc'
    refine ⟨hpast, ?_⟩
    by_cases ht : row.token = c.1
    · have hsame := h.same_session hc hc' ht
      subst hsame
      have huse : usesOf row.token [.accepted row.token w.now] = [w.now] := by simp [usesOf]
      rw [usesOf_append, huse]
      exact (isChain_use ..).mpr ⟨hchain, hgap⟩
    · rw [usesOf_accepted_ne ht]
      exact hchain

/-! ## A request -/

/-- What sessions depend on. -/
def World.core (w : World) : List SessionRow × List UserRow × Int × Nat := (w.db.sessions, w.db.users, w.now, w.draws)

theorem Agrees.of_core {w' : World} (h : Agrees env users w history) (hc : w'.core = w.core) :
    Agrees env users w' history := by
  obtain ⟨hsessions, husers, hnow, hdraws⟩ : w'.db.sessions = w.db.sessions ∧ w'.db.users = w.db.users ∧
      w'.now = w.now ∧ w'.draws = w.draws := by simpa [World.core] using hc
  exact {
    sameUsers := husers.trans h.sameUsers
    rows := by rw [hsessions]; exact h.rows
    drawn := by rw [hdraws]; exact h.drawn
    distinct := h.distinct
    owned := h.owned
    used := h.used
    window := by rw [hnow]; exact h.window }

variable {req : Request} {r : HttpRequest} {handler : Handler}

/-- The gate, where the driver takes its statements. -/
theorem gate_sound (env : Env) (handler : Handler) (w : World) (faults : List (Option Fault)) {token : Bytes}
    (ht : req.find (text "session-token") = some token) :
    let s := atGate env handler (w.gateSound faults)
    (∃ row owner, tokenOwner token w = some (row, owner) ∧
      gate req s = .ok true { s with handling := admitted token row owner s.handling }) ∨
    tokenOwner token w = none ∧ ∃ response v, response.status = 401 ∧ v.settled = s.handling.world.settled ∧
      gate req s = .ok false { handling := { s.handling with world := v }, written := [response] } := by
  intro s
  have hsound : s.handling.world.Sound 3 := by simp [s, atGate, Handler.construct, World.gateSound, World.Sound]
  have hgate := gate_gate ht s
  generalize gate req s = result at hgate
  cases hgate with
  | @passed row owner _ ho _ => exact .inl ⟨row, owner, ho, rfl⟩
  | @refused what v hno hiff hv =>
    have hnone : tokenOwner token w = none := by
      cases ho : tokenOwner token w with
      | none => rfl
      | some o => exact absurd ⟨hsound.mono (by omega), by rw [show tokenOwner token s.handling.world = some o from ho]; rfl⟩ hno
    have h401 : Tellable 401 (text "Unauthorized: " ++ what) :=
      (tellable_append rfl (by decide)).mpr (hiff.mp (.of_sound hsound))
    obtain ⟨response, hstatus, hbuild⟩ := buildError_ok h401 { s with handling := { s.handling with world := v } }
    refine .inr ⟨hnone, response, v, hstatus, hv, ?_⟩
    exact bind_ok hbuild
  | hung hno => exact absurd (.of_sound hsound) hno

theorem gate_no_token (ht : req.find (text "session-token") = none) (s : Serving) :
    ∃ response, response.status = 401 ∧ gate req s = .ok false { s with written := s.written ++ [response] } := by
  have h401 : Tellable 401 (text "Unauthorized") := ⟨by decide, rfl⟩
  obtain ⟨response, hstatus, hbuild⟩ := buildError_ok h401 s
  rw [gate, ht]
  exact ⟨response, hstatus, bind_ok hbuild⟩

theorem Authenticated.passesAs_eq (hreq : Authenticated env req r handler) (w : World) (faults : List (Option Fault)) :
    passesAs env req (w.gateSound faults) =
      (req.find (text "session-token")).bind fun token => (tokenOwner token w).map (·.1.userId) := by
  rw [passesAs, hreq.request]
  simp only [Option.bind_eq_bind, Option.bind_some, hreq.route]
  cases ht : req.find (text "session-token") with
  | none =>
    obtain ⟨response, -, hgate⟩ := gate_no_token ht (atGate env handler (w.gateSound faults))
    rw [hgate]
    rfl
  | some token =>
    rcases gate_sound env handler w faults ht with ⟨row, owner, ho, hgate⟩ | ⟨ho, response, v, -, -, hgate⟩
    · rw [hgate, Option.bind_some, ho]
      rfl
    · rw [hgate, Option.bind_some, ho]
      rfl

/-- A request that passes has a token, which the gate knows. -/
theorem Authenticated.token_of_passesAs (hreq : Authenticated env req r handler) {w : World}
    {faults : List (Option Fault)} {userId : Int} (hp : passesAs env req (w.gateSound faults) = some userId) :
    ∃ token row owner, req.find (text "session-token") = some token ∧ tokenOwner token w = some (row, owner) := by
  rw [hreq.passesAs_eq] at hp
  obtain ⟨token, ht, ho⟩ := Option.bind_eq_some_iff.mp hp
  obtain ⟨⟨row, owner⟩, ho, -⟩ := Option.map_eq_some_iff.mp ho
  exact ⟨token, row, owner, ht, ho⟩

/-- A request that is let in refreshes its session, and what else it does is
nothing to sessions. -/
theorem Authenticated.step_passed (hreq : Authenticated env req r handler) (w : World) (faults : List (Option Fault))
    {token : Bytes} (ht : req.find (text "session-token") = some token) {row : SessionRow} {owner : UserRow}
    (ho : tokenOwner token w = some (row, owner)) :
    ((Event.request req faults).step env w).core = (refreshSessions token row.userId w).core := by
  rcases gate_sound env handler w faults ht with ⟨row', owner', ho', hgate⟩ | ⟨hnone, -⟩
  · cases ho.symm.trans ho'
    let I (v : World) : Prop := v.core = (refreshSessions token row.userId w).core
    rw [Event.step, hreq.process_eq, serve_passed hreq.auth hgate]
    have hfootprint : Footprint env r (sessionUser token row owner) (Diag I) (Diag I) :=
      diag_footprint (fun _ h => h) (fun _ h => h) (fun _ h => h) (fun _ _ _ _ _ h => h) (fun _ _ _ h => h) fun _ _ _ _ h => h
    exact handle_keeps hfootprint req hreq.route hreq.auth rfl rfl rfl
  · rw [hnone] at ho
    cases ho

theorem Authenticated.gate_refused (hreq : Authenticated env req r handler) (w : World) (faults : List (Option Fault))
    (hno : passesAs env req (w.gateSound faults) = none) :
    ∃ t response, gate req (atGate env handler (w.gateSound faults)) = .ok false t ∧ t.written = [response] ∧
      response.status = 401 ∧ t.handling.world.core = w.core := by
  rw [hreq.passesAs_eq] at hno
  cases ht : req.find (text "session-token") with
  | none =>
    obtain ⟨response, hstatus, hgate⟩ := gate_no_token ht (atGate env handler (w.gateSound faults))
    exact ⟨_, response, hgate, rfl, hstatus, rfl⟩
  | some token =>
    rcases gate_sound env handler w faults ht with ⟨row, owner, ho, -⟩ | ⟨-, response, v, hstatus, hv, hgate⟩
    · rw [ht, Option.bind_some, ho] at hno
      cases hno
    · have hcore : v.settled.core = (atGate env handler (w.gateSound faults)).handling.world.settled.core := by rw [hv]
      exact ⟨_, response, hgate, rfl, hstatus, hcore⟩

/-- A request that is refused changes nothing. -/
theorem Authenticated.step_refused (hreq : Authenticated env req r handler) (w : World) (faults : List (Option Fault))
    (hno : passesAs env req (w.gateSound faults) = none) : ((Event.request req faults).step env w).core = w.core := by
  obtain ⟨t, response, hgate, -, -, hcore⟩ := hreq.gate_refused w faults hno
  rw [Event.step, hreq.process_eq, serve_refused hreq.auth hgate]
  exact hcore

/-! ## Runs -/

theorem Agrees.request (h : Agrees env users w history) (hreq : Authenticated env req r handler)
    (faults : List (Option Fault)) :
    Agrees env users ((Event.request req faults).step env w) (history ++ (Event.request req faults).entries env w) := by
  cases hp : passesAs env req (w.gateSound faults) with
  | none =>
    have hentries : (Event.request req faults).entries env w = [] := by
      rw [Event.entries, hp]
      cases req.find (text "session-token") <;> rfl
    rw [hentries, List.append_nil]
    exact h.of_core (hreq.step_refused w faults hp)
  | some userId =>
    obtain ⟨token, row, owner, ht, ho⟩ := hreq.token_of_passesAs hp
    have hentries : (Event.request req faults).entries env w = [.accepted token w.now] := by
      rw [Event.entries, hp, ht]
    rw [hentries]
    exact (h.accept ho).of_core (hreq.step_passed w faults ht ho)

theorem Authenticated.step_draws (hreq : Authenticated env req r handler) (w : World) (faults : List (Option Fault)) :
    ((Event.request req faults).step env w).draws = w.draws := by
  cases hp : passesAs env req (w.gateSound faults) with
  | none => exact congrArg (·.2.2.2) (hreq.step_refused w faults hp)
  | some userId =>
    obtain ⟨token, row, owner, ht, ho⟩ := hreq.token_of_passesAs hp
    exact congrArg (·.2.2.2) (hreq.step_passed w faults ht ho)

theorem Event.step_draws {w : World} {e : Event} (he : e.Allowed env users) : w.draws ≤ (e.step env w).draws := by
  cases e with
  | tick seconds => exact Nat.le_refl _
  | create userId =>
    rw [(create_step env w userId).1]
    exact Nat.le_succ _
  | request req faults =>
    obtain ⟨r, handler, hreq⟩ := he
    exact Nat.le_of_eq (hreq.step_draws w faults).symm

theorem run_draws {w v : World} {history later : List Entry} {events : List Event}
    (hallowed : ∀ e ∈ events, e.Allowed env users) (hrun : run env w history events = (v, later)) :
    w.draws ≤ v.draws := by
  induction events generalizing w history with
  | nil =>
    cases hrun
    exact Nat.le_refl _
  | cons e es ih =>
    have hstep := Event.step_draws (w := w) (hallowed e (.head _))
    exact hstep.trans (ih (fun e he => hallowed e (.tail _ he)) hrun)

theorem Agrees.step (h : Agrees env users w history) {e : Event} (he : e.Allowed env users)
    (hd : DistinctTokens env (e.step env w).draws) :
    Agrees env users (e.step env w) (history ++ e.entries env w) := by
  cases e with
  | tick seconds =>
    rw [Event.entries, List.append_nil]
    exact h.tick seconds
  | create userId =>
    refine h.create ?_ he
    rw [(create_step env w userId).1] at hd
    exact hd
  | request req faults =>
    obtain ⟨r, handler, hreq⟩ := he
    exact h.request hreq faults

/-- What every step keeps, a run keeps. -/
theorem run_agrees {w v : World} {history later : List Entry} {events : List Event} (h : Agrees env users w history)
    (hallowed : ∀ e ∈ events, e.Allowed env users) (hrun : run env w history events = (v, later))
    (hd : DistinctTokens env v.draws) : Agrees env users v later := by
  induction events generalizing w history with
  | nil =>
    cases hrun
    exact h
  | cons e es ih =>
    have hes : ∀ e ∈ es, e.Allowed env users := fun e he => hallowed e (.tail _ he)
    have hle := run_draws hes hrun
    have hdstep : DistinctTokens env (e.step env w).draws := fun j k hj hk => hd j k (by omega) (by omega)
    exact ih (h.step (hallowed e (.head _)) hdstep) hes hrun

/-- **Sessions follow a sliding window.** After any run, the gate lets a
request through as a user exactly when its token is in the window of a session
of that user; in every other case the answer is 401, and it is the same
whatever the methods of the handler are. -/
theorem sessions_slide (env : Env) {w v : World} {history : List Entry} {events : List Event} {req : Request}
    {r : HttpRequest} {handler : Handler} (hempty : w.db.sessions = [])
    (hallowed : ∀ e ∈ events, e.Allowed env w.db.users) (hrun : run env w [] events = (v, history))
    (hdistinct : DistinctTokens env v.draws) (hreq : Authenticated env req r handler)
    (faults : List (Option Fault)) :
    (∀ userId, passesAs env req (v.gateSound faults) = some userId ↔
      ∃ token, req.find (text "session-token") = some token ∧ InWindow history token userId v.now) ∧
    (passesAs env req (v.gateSound faults) = none → ∃ s response,
      process env (applicationRoutes env) req (v.gateSound faults) = .ok () s ∧ s.written = [response] ∧
        response.status = 401 ∧ ∀ methods : Handler, methods.requiresAuthentication = true →
          serve env methods req r (atGate env handler (v.gateSound faults)) = .ok () s) := by
  have h : Agrees env w.db.users v history := run_agrees (agrees_empty hempty) hallowed hrun hdistinct
  constructor
  · intro userId
    have hwindow : ∀ token, (tokenOwner token v).map (·.1.userId) = some userId ↔
        InWindow history token userId v.now := by
      intro token
      rw [h.tokenOwner_iff, inWindow_iff]
      intro t0 hc
      exact h.window _ (mem_creations.mpr hc)
    rw [hreq.passesAs_eq, Option.bind_eq_some_iff]
    simp only [hwindow]
  · intro hno
    obtain ⟨s, response, hgate, hwritten, hstatus, -⟩ := hreq.gate_refused v faults hno
    refine ⟨s, response, ?_, hwritten, hstatus, fun methods hauth => serve_refused hauth hgate⟩
    rw [hreq.process_eq, serve_refused hreq.auth hgate]

end

/-! A session of the first token, and `GET /projects` with it. -/

def firstToken : Bytes := base64Encode (plainEnv.random 0)

theorem firstToken_no_NUL : ∀ f ∈ [(text "session-token", firstToken)], 0 ∉ f.2 := by
  decide

def listProjects : Request where
  method := .get
  methodString := text "GET"
  target := text "/projects"
  fields := [(text "session-token", firstToken)]
  body := []
  method_ascii := get_ascii
  value_no_NUL := firstToken_no_NUL

def oneUser : World := { db := { users := [{ id := 1, email := text "a@b", hash := repeated 1, nacl := repeated 0 }] } }

theorem listProjects_authenticated : Authenticated plainEnv listProjects
    { verb := .get, path := text "/projects", urlParams := [], contentType := text "application/json", files := []
      body := [] } (projectListHandler plainEnv) where
  request := by decide
  route := rfl
  auth := rfl

/-- The session is created, is used when it is about to expire, and is about to
expire again. -/
def lateRun : World × List Entry :=
  run plainEnv oneUser [] [.create 1, .tick 3599, .request listProjects [], .tick 3599]

/-- Nearly two hours after the session was created, the token is still taken. -/
theorem sessions_slide_late :
    lateRun.1.now = 7198 ∧ passesAs plainEnv listProjects (lateRun.1.gateSound []) = some 1 := by
  have hallowed : ∀ e ∈ [Event.create 1, .tick 3599, .request listProjects [], .tick 3599],
      e.Allowed plainEnv oneUser.db.users := by
    simp only [List.forall_mem_cons]
    exact ⟨⟨_, .head _, rfl⟩, trivial, ⟨_, _, listProjects_authenticated⟩, trivial, by simp⟩
  have hdraws : lateRun.1.draws = 1 := by decide +kernel
  have hdistinct : DistinctTokens plainEnv lateRun.1.draws := by
    intro j k hj hk _
    omega
  have hhistory : lateRun.2 = [.created firstToken 1 0, .accepted firstToken 3599] := by decide +kernel
  have hrun : run plainEnv oneUser [] [.create 1, .tick 3599, .request listProjects [], .tick 3599] =
      (lateRun.1, [.created firstToken 1 0, .accepted firstToken 3599]) :=
    Prod.ext rfl hhistory
  have hnow : lateRun.1.now = 7198 := by decide +kernel
  have hwindow : InWindow [.created firstToken 1 0, .accepted firstToken 3599] firstToken 1 lateRun.1.now := by
    rw [hnow]
    refine ⟨0, by decide, .head _, ?_⟩
    rw [usesOf]
    decide +kernel
  exact ⟨hnow, ((sessions_slide plainEnv rfl hallowed hrun hdistinct listProjects_authenticated []).1 1).mpr
    ⟨firstToken, rfl, hwindow⟩⟩

end AudioToolApi
