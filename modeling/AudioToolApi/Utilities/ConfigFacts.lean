/-
What `config_holder` makes of a file (`configHolder_iff`): each field is that
of the last entry for it, in the order of the keys, and the program goes on if
and only if every entry for a field can be converted and the database is
given.
-/
import AudioToolApi.Utilities.Config
import AudioToolApi.Utilities.JsonParsed

namespace AudioToolApi

/-! ## Parameters -/

/-- What an entry can be for. -/
inductive Parameter
  | serverHost | serverPort | pathPrefix | statsdHost | statsdPort
  | dbHost | dbPort | dbUser | dbPassword | dbDatabase
  | googleAuthClientId | googleAuthSecret | serverType | numWorkers | numThreads
  deriving DecidableEq, Repr

inductive Setting
  | string (s : Bytes)
  | number (i : Int)
  deriving DecidableEq, Repr

def Parameter.name : Parameter → Bytes
  | .serverHost => text "server_host"
  | .serverPort => text "server_port"
  | .pathPrefix => text "path_prefix"
  | .statsdHost => text "statsd_host"
  | .statsdPort => text "statsd_port"
  | .dbHost => text "db_host"
  | .dbPort => text "db_port"
  | .dbUser => text "db_user"
  | .dbPassword => text "db_password"
  | .dbDatabase => text "db_database"
  | .googleAuthClientId => text "google_auth_client_id"
  | .googleAuthSecret => text "google_auth_secret"
  | .serverType => text "server_type"
  | .numWorkers => text "num_workers"
  | .numThreads => text "num_threads"

def ConfigHolder.get (c : ConfigHolder) : Parameter → Setting
  | .serverHost => .string c.serverHost
  | .serverPort => .number c.serverPort
  | .pathPrefix => .string c.pathPrefix
  | .statsdHost => .string c.statsdHost
  | .statsdPort => .number c.statsdPort
  | .dbHost => .string c.dbHost
  | .dbPort => .number c.dbPort
  | .dbUser => .string c.dbUser
  | .dbPassword => .string c.dbPassword
  | .dbDatabase => .string c.dbDatabase
  | .googleAuthClientId => .string c.googleAuthClientId
  | .googleAuthSecret => .string c.googleAuthSecret
  | .serverType => .string c.serverType
  | .numWorkers => .number c.numWorkers
  | .numThreads => .number c.numThreads

/-- The value of an entry, as the field takes it. -/
def Parameter.read (p : Parameter) (value : Json) : Except Bytes Setting :=
  match p with
  | .serverPort | .statsdPort | .dbPort | .numWorkers | .numThreads => value.toInt.map .number
  | _ => value.toString.map .string

/-- The value of the last entry for `p`. -/
def lastEntry (members : List (Bytes × Json)) (p : Parameter) : Option Json :=
  (members.reverse.find? fun m => cStr m.1 = p.name).map Prod.snd

/-- A key with a NUL after the name is for the same field, and comes later. -/
example : lastEntry [(text "db_port", .int 3306), (text "db_port\x00", .int 0)] .dbPort = some (.int 0) := rfl

theorem text_injective : Function.Injective text := fun _ _ h =>
  String.toByteArray_inj.mp (ByteArray.ext (Array.toList_inj.mp h))

theorem name_injective : Function.Injective Parameter.name := by
  intro p q h
  cases p <;> cases q <;> first | rfl | exact absurd (text_injective h) (by decide)

/-- The field set, to a setting of its kind. -/
def ConfigHolder.put (c : ConfigHolder) : Parameter → Setting → ConfigHolder
  | .serverHost, .string s => { c with serverHost := s }
  | .serverPort, .number i => { c with serverPort := i }
  | .pathPrefix, .string s => { c with pathPrefix := s }
  | .statsdHost, .string s => { c with statsdHost := s }
  | .statsdPort, .number i => { c with statsdPort := i }
  | .dbHost, .string s => { c with dbHost := s }
  | .dbPort, .number i => { c with dbPort := i }
  | .dbUser, .string s => { c with dbUser := s }
  | .dbPassword, .string s => { c with dbPassword := s }
  | .dbDatabase, .string s => { c with dbDatabase := s }
  | .googleAuthClientId, .string s => { c with googleAuthClientId := s }
  | .googleAuthSecret, .string s => { c with googleAuthSecret := s }
  | .serverType, .string s => { c with serverType := s }
  | .numWorkers, .number i => { c with numWorkers := i }
  | .numThreads, .number i => { c with numThreads := i }
  | _, _ => c

variable {c c' : ConfigHolder} {p q : Parameter} {j value : Json} {s : Setting}

theorem get_put_other (h : q ≠ p) : (c.put p s).get q = c.get q := by
  cases p <;> cases s <;> cases q <;> first | rfl | exact absurd rfl h

theorem put_connectionString (c : ConfigHolder) (p : Parameter) (s : Setting) :
    (c.put p s).dbConnectionString = c.dbConnectionString := by
  cases p <;> cases s <;> rfl

theorem get_put_read (h : p.read value = .ok s) : (c.put p s).get p = s := by
  have hkind {α : Type} {f : α → Setting} {x : Except Bytes α} (h : x.map f = .ok s) : ∃ a, f a = s := by
    cases x with
    | error e => cases h
    | ok a => exact ⟨a, Except.ok.inj h⟩
  cases p <;> obtain ⟨a, rfl⟩ := hkind h <;> rfl

/-- The fields and the connection string are all there is. -/
theorem configHolder_ext (h : ∀ p, c.get p = c'.get p) (hconnection : c.dbConnectionString = c'.dbConnectionString) :
    c = c' := by
  have hserverHost := h .serverHost
  have hserverPort := h .serverPort
  have hpathPrefix := h .pathPrefix
  have hstatsdHost := h .statsdHost
  have hstatsdPort := h .statsdPort
  have hdbHost := h .dbHost
  have hdbPort := h .dbPort
  have hdbUser := h .dbUser
  have hdbPassword := h .dbPassword
  have hdbDatabase := h .dbDatabase
  have hclientId := h .googleAuthClientId
  have hsecret := h .googleAuthSecret
  have hserverType := h .serverType
  have hnumWorkers := h .numWorkers
  have hnumThreads := h .numThreads
  cases c
  cases c'
  simp_all [ConfigHolder.get]

/-! ## The loop -/

/-- An entry for a field sets it. -/
theorem assign_named {el : Bytes × Json} (hat : j.at el.1 = .ok el.2) (hname : cStr el.1 = p.name) :
    c.assign j el = (p.read el.2).map (c.put p) := by
  cases p <;>
    simp only [ConfigHolder.assign, hname, hat, Parameter.name, text_injective.eq_iff, String.reduceEq, if_true, if_false,
      bind, Except.bind, Parameter.read] <;>
    first | (cases el.2.toString <;> rfl) | (cases el.2.toInt <;> rfl)

/-- Any other is passed over. -/
theorem assign_unknown {el : Bytes × Json} (hname : ∀ p : Parameter, cStr el.1 ≠ p.name) : c.assign j el = .ok c := by
  unfold ConfigHolder.assign
  refine (if_neg (hname .serverHost)).trans <| (if_neg (hname .serverPort)).trans <|
    (if_neg (hname .pathPrefix)).trans <| (if_neg (hname .statsdHost)).trans <| (if_neg (hname .statsdPort)).trans <|
    (if_neg (hname .dbHost)).trans <| (if_neg (hname .dbPort)).trans <| (if_neg (hname .dbUser)).trans <|
    (if_neg (hname .dbPassword)).trans <| (if_neg (hname .dbDatabase)).trans <|
    (if_neg (hname .googleAuthClientId)).trans <| (if_neg (hname .googleAuthSecret)).trans <|
    (if_neg (hname .serverType)).trans <| (if_neg (hname .numWorkers)).trans <| if_neg (hname .numThreads)

/-- What the entries make of the fields. -/
structure Settled (els : List (Bytes × Json)) (c c' : ConfigHolder) : Prop where
  reads : ∀ el ∈ els, ∀ p : Parameter, cStr el.1 = p.name → ∃ s, p.read el.2 = .ok s
  last : ∀ p value, lastEntry els p = some value → p.read value = .ok (c'.get p)
  kept : ∀ p, lastEntry els p = none → c'.get p = c.get p
  connectionString : c'.dbConnectionString = c.dbConnectionString

theorem lastEntry_cons (el : Bytes × Json) (els : List (Bytes × Json)) (p : Parameter) :
    lastEntry (el :: els) p = (lastEntry els p).or (if cStr el.1 = p.name then some el.2 else none) := by
  unfold lastEntry
  rw [List.reverse_cons, List.find?_append]
  by_cases h : cStr el.1 = p.name <;> cases els.reverse.find? (fun m => cStr m.1 = p.name) <;> simp [h]

theorem settled_nil : Settled [] c c' ↔ c' = c := by
  constructor
  · intro h
    exact configHolder_ext (fun p => h.kept p rfl) h.connectionString
  · rintro rfl
    exact ⟨fun el hel => absurd hel List.not_mem_nil, fun p value h => (by cases h), fun _ _ => rfl, rfl⟩

/-- An entry for a field, and those after it. -/
theorem settled_named {el : Bytes × Json} {els : List (Bytes × Json)} (hname : cStr el.1 = p.name)
    (hread : p.read el.2 = .ok s) : Settled (el :: els) c c' ↔ Settled els (c.put p s) c' := by
  have hlater {q : Parameter} {v : Json} (hq : lastEntry els q = some v) : lastEntry (el :: els) q = some v := by
    rw [lastEntry_cons, hq, Option.some_or]
  have hhere (hp : lastEntry els p = none) : lastEntry (el :: els) p = some el.2 := by
    rw [lastEntry_cons, hp, if_pos hname, Option.none_or]
  have hother {q : Parameter} (hq : q ≠ p) : lastEntry (el :: els) q = lastEntry els q := by
    have hne : cStr el.1 ≠ q.name := fun h => hq (name_injective (h.symm.trans hname))
    rw [lastEntry_cons, if_neg hne, Option.or_none]
  have hput : (c.put p s).get p = s := get_put_read hread
  constructor
  · intro h
    refine ⟨fun m hm => h.reads m (List.mem_cons_of_mem _ hm), fun q v hq => h.last q v (hlater hq), fun q hq => ?_,
      h.connectionString.trans (put_connectionString c p s).symm⟩
    by_cases hqp : q = p
    · subst hqp
      have hlast : q.read el.2 = .ok (c'.get q) := h.last q el.2 (hhere hq)
      rw [hput]
      exact Except.ok.inj (hlast.symm.trans hread)
    · rw [get_put_other hqp]
      exact h.kept q (by rw [hother hqp, hq])
  · intro h
    refine ⟨fun m hm q hq => ?_, fun q v hq => ?_, fun q hq => ?_,
      h.connectionString.trans (put_connectionString c p s)⟩
    · rcases List.mem_cons.mp hm with rfl | hm
      · obtain rfl : q = p := name_injective (hq.symm.trans hname)
        exact ⟨s, hread⟩
      · exact h.reads m hm q hq
    · by_cases hqp : q = p
      · subst hqp
        cases hlast : lastEntry els q with
        | none =>
          obtain rfl : el.2 = v := Option.some.inj ((hhere hlast).symm.trans hq)
          rw [hread, h.kept q hlast, hput]
        | some w =>
          obtain rfl : w = v := Option.some.inj ((hlater hlast).symm.trans hq)
          exact h.last q w hlast
      · exact h.last q v (by rw [← hother hqp, hq])
    · have hqp : q ≠ p := by
        rintro rfl
        rw [lastEntry_cons, if_pos hname] at hq
        cases hlast : lastEntry els q <;> simp [hlast] at hq
      rw [h.kept q (by rw [← hother hqp, hq]), get_put_other hqp]

theorem settled_unknown {el : Bytes × Json} {els : List (Bytes × Json)} (hname : ∀ p : Parameter, cStr el.1 ≠ p.name) :
    Settled (el :: els) c c' ↔ Settled els c c' := by
  have hlast (q : Parameter) : lastEntry (el :: els) q = lastEntry els q := by
    rw [lastEntry_cons, if_neg (hname q), Option.or_none]
  constructor
  · intro h
    exact ⟨fun m hm => h.reads m (List.mem_cons_of_mem _ hm), fun q v hq => h.last q v (by rw [hlast, hq]),
      fun q hq => h.kept q (by rw [hlast, hq]), h.connectionString⟩
  · intro h
    refine ⟨fun m hm q hq => ?_, fun q v hq => h.last q v (by rw [← hlast, hq]),
      fun q hq => h.kept q (by rw [← hlast, hq]), h.connectionString⟩
    rcases List.mem_cons.mp hm with rfl | hm
    · exact absurd hq (hname q)
    · exact h.reads m hm q hq

/-- **The loop** ends if and only if each entry for a field can be converted,
and then the last one counts. -/
theorem loop_ok_iff {els : List (Bytes × Json)} (hat : ∀ el ∈ els, j.at el.1 = .ok el.2) :
    els.foldlM (ConfigHolder.assign j) c = .ok c' ↔ Settled els c c' := by
  induction els generalizing c with
  | nil =>
    rw [settled_nil, List.foldlM_nil]
    exact ⟨fun h => (Except.ok.inj h).symm, fun h => congrArg Except.ok h.symm⟩
  | cons el els ih =>
    have hels := fun m hm => hat m (List.mem_cons_of_mem el hm)
    rw [List.foldlM_cons]
    by_cases hknown : ∃ p : Parameter, cStr el.1 = p.name
    · obtain ⟨p, hname⟩ := hknown
      rw [assign_named (hat el List.mem_cons_self) hname]
      cases hread : p.read el.2 with
      | error what =>
        refine ⟨fun h => (by cases h), fun h => ?_⟩
        obtain ⟨s, hs⟩ := h.reads el List.mem_cons_self p hname
        cases hread.symm.trans hs
      | ok s =>
        rw [settled_named hname hread]
        exact ih hels
    · have hname : ∀ p : Parameter, cStr el.1 ≠ p.name := fun p hp => hknown ⟨p, hp⟩
      rw [assign_unknown hname, settled_unknown hname]
      exact ih hels

/-! ## Files -/

/-- An object finds its own members. -/
theorem at_member {members : List (Bytes × Json)} (h : Ascending members) {el : Bytes × Json} (hel : el ∈ members) :
    (Json.object members).at el.1 = .ok el.2 := by
  have hlookup : members.lookup el.1 = some el.2 := by
    induction members with
    | nil => cases hel
    | cons m members ih =>
      obtain ⟨hhead, htail⟩ := List.pairwise_cons.mp h
      rcases List.mem_cons.mp hel with rfl | hel
      · exact List.lookup_cons_self
      · have hne : el.1 ≠ m.1 := fun heq => List.lt_irrefl _ (heq ▸ hhead el hel)
        rw [List.lookup_cons, beq_false_of_ne hne]
        exact ih htail hel
  simp [Json.at, hlookup]

theorem kept_ascending (strtod : Bytes → Option Double) : Kept strtod (fun _ => True) (fun _ => True)
    (fun j => ∀ members, j = .object members → Ascending members) fun _ => True where
  scan _ _ := ⟨trivial, trivial⟩
  null _ h := by cases h
  bool _ _ h := by cases h
  unsigned _ _ h := by cases h
  integer _ _ h := by cases h
  float _ _ h := by cases h
  string _ _ h := by cases h
  array _ _ h := by cases h
  object hascending _ _ h := by
    cases h
    exact hascending
  syntaxError _ _ := fun _ => trivial
  overflow _ := trivial

/-- The members of an object that `parse` returns are in the order of their
keys, whatever reads the doubles. -/
theorem parse_ascending {strtod : Bytes → Option Double} {file : Bytes} {members : List (Bytes × Json)}
    (h : Json.parse strtod file = .ok (.object members)) : Ascending members := by
  have hkeeps := parse_keeps (kept_ascending strtod) file trivial trivial
  rw [h] at hkeeps
  exact hkeeps members rfl

/-- The database is given. -/
def ConfigHolder.Complete (c : ConfigHolder) : Prop := c.dbHost ≠ [] ∧ c.dbPort ≠ 0 ∧ c.dbDatabase ≠ []

theorem get_connectionString (c : ConfigHolder) (connection : Bytes) (p : Parameter) :
    ({ c with dbConnectionString := connection } : ConfigHolder).get p = c.get p := by
  cases p <;> rfl

/-- **When the program goes on, and with what**: the file is an object, each
entry for a field can be converted to it, the last of them in the order of the
keys counts, and the database is given. -/
theorem configHolder_iff (strtod : Bytes → Option Double) (memory : ConfigMemory) (file : Bytes) (c : ConfigHolder) :
    configHolder strtod memory file = .ok c ↔
      ∃ members, Json.parse strtod file = .ok (.object members) ∧
        (∀ el ∈ members, ∀ p : Parameter, cStr el.1 = p.name → ∃ s, p.read el.2 = .ok s) ∧
        (∀ p, match lastEntry members p with
          | some value => p.read value = .ok (c.get p)
          | none => c.get p = (ConfigHolder.initial memory).get p) ∧
        c.Complete ∧ c.dbConnectionString = text "tcp://" ++ c.dbHost ++ text ":" ++ dumpInteger c.dbPort := by
  constructor
  · intro h
    unfold configHolder at h
    split at h
    · cases h
    · rename_i members hparse
      have hat := fun el hel => @at_member members (parse_ascending hparse) el hel
      split at h
      · cases h
      · rename_i c' hloop
        have hsettled := (loop_ok_iff hat).mp hloop
        split at h
        · cases h
        · rename_i hcomplete
          cases h
          refine ⟨members, hparse, hsettled.reads, fun p => ?_, by simpa [ConfigHolder.Complete] using hcomplete, rfl⟩
          rw [get_connectionString]
          cases hlast : lastEntry members p with
          | none => exact hsettled.kept p hlast
          | some value => exact hsettled.last p value hlast
    · cases h
  · rintro ⟨members, hparse, hreads, hfields, hcomplete, hconnection⟩
    have hat := fun el hel => @at_member members (parse_ascending hparse) el hel
    have hsettled : Settled members (.initial memory) { c with dbConnectionString := [] } := by
      refine ⟨hreads, fun p value hlast => ?_, fun p hlast => ?_, rfl⟩
      · have hfield := hfields p
        rw [hlast] at hfield
        rw [get_connectionString]
        exact hfield
      · have hfield := hfields p
        rw [hlast] at hfield
        rw [get_connectionString]
        exact hfield
    have hgiven : ¬(c.dbHost = [] ∨ c.dbPort = 0 ∨ c.dbDatabase = []) := by simpa [ConfigHolder.Complete] using hcomplete
    simp only [configHolder, hparse, (loop_ok_iff hat).mpr hsettled, if_neg hgiven, ← hconnection]

end AudioToolApi
