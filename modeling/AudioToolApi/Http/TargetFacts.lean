/-
The target of a request (http/http_request.cpp): a query that was written out
is read back, and the path is the part before the first mark unless a later
mark puts the name read last in its place.
-/
import AudioToolApi.Http.Process
import AudioToolApi.Http.RequestFacts
import Mathlib.Data.List.DropRight
import Mathlib.Data.List.Nodup

namespace AudioToolApi

/-- `?` or `#`. -/
def isMark (c : UInt8) : Bool := c = 63 || c = 35

theorem isMark_iff {c : UInt8} : isMark c = true ↔ c = 63 ∨ c = 35 := by simp [isMark]

/-! ## One byte -/

namespace UrlState

theorem step_mark (u : UrlState) {c : UInt8} (hc : isMark c = true) :
    u.step c = { u with path := u.currentParamName, currentParamName := [], inParams := true } := by
  rw [step, if_pos (isMark_iff.mp hc)]

theorem step_path {u : UrlState} (hp : u.inParams = false) {c : UInt8} (hc : isMark c = false) :
    u.step c = { u with currentParamName := u.currentParamName ++ [c] } := by
  have hm : ¬ (c = 63 ∨ c = 35) := by simp [← isMark_iff, hc]
  simp [step, hm, hp]

theorem step_equals {u : UrlState} (hp : u.inParams = true) (hv : u.inValue = false) :
    u.step 61 = { u with inValue := true } := by
  simp [step, hp, hv]

theorem step_ampersand {u : UrlState} (hp : u.inParams = true) :
    u.step 38 =
      { u with
        urlParams := u.urlParams.assign u.currentParamName u.currentParamValue
        currentParamName := [], currentParamValue := [], inValue := false } := by
  simp [step, hp]

theorem step_name {u : UrlState} (hv : u.inValue = false) {c : UInt8} (hc : isMark c = false)
    (hne : c ≠ 61) (hna : c ≠ 38) : u.step c = { u with currentParamName := u.currentParamName ++ [c] } := by
  have hm : ¬ (c = 63 ∨ c = 35) := by simp [← isMark_iff, hc]
  simp [step, hm, hne, hna, hv]

theorem step_value {u : UrlState} (hp : u.inParams = true) (hv : u.inValue = true) {c : UInt8}
    (hc : isMark c = false) (hna : c ≠ 38) :
    u.step c = { u with currentParamValue := u.currentParamValue ++ [c] } := by
  have hm : ¬ (c = 63 ∨ c = 35) := by simp [← isMark_iff, hc]
  simp [step, hm, hna, hp, hv]

/-! ## A run of bytes -/

theorem foldl_path : ∀ (s : Bytes) {u : UrlState}, u.inParams = false → (∀ c ∈ s, isMark c = false) →
    s.foldl step u = { u with currentParamName := u.currentParamName ++ s }
  | [], u, _, _ => by simp
  | c :: s, u, hp, hs => by
    rw [List.foldl_cons, step_path hp (hs c (by simp)), foldl_path s (by exact hp) fun d hd => hs d (by simp [hd])]
    simp

theorem foldl_name : ∀ (s : Bytes) {u : UrlState}, u.inValue = false →
    (∀ c ∈ s, isMark c = false ∧ c ≠ 61 ∧ c ≠ 38) →
    s.foldl step u = { u with currentParamName := u.currentParamName ++ s }
  | [], u, _, _ => by simp
  | c :: s, u, hv, hs => by
    obtain ⟨hc, hne, hna⟩ := hs c (by simp)
    rw [List.foldl_cons, step_name hv hc hne hna, foldl_name s (by exact hv) fun d hd => hs d (by simp [hd])]
    simp

theorem foldl_value : ∀ (s : Bytes) {u : UrlState}, u.inParams = true → u.inValue = true →
    (∀ c ∈ s, isMark c = false ∧ c ≠ 38) →
    s.foldl step u = { u with currentParamValue := u.currentParamValue ++ s }
  | [], u, _, _, _ => by simp
  | c :: s, u, hp, hv, hs => by
    obtain ⟨hc, hna⟩ := hs c (by simp)
    rw [List.foldl_cons, step_value hp hv hc hna,
      foldl_value s (by exact hp) (by exact hv) fun d hd => hs d (by simp [hd])]
    simp

end UrlState

/-! ## A query that is written out -/

/-- A pair of a query; `none` is a pair without `=`. -/
structure UrlParam where
  name : Bytes
  value : Option Bytes
  name_ne_nil : name ≠ []
  name_bytes : ∀ c ∈ name, isMark c = false ∧ c ≠ 61 ∧ c ≠ 38
  value_bytes : ∀ v ∈ value, ∀ c ∈ v, isMark c = false ∧ c ≠ 38

namespace UrlParam

def encode (p : UrlParam) : Bytes :=
  match p.value with
  | some v => p.name ++ 61 :: v
  | none => p.name

/-- The name and the value it is read back with. -/
def entry (p : UrlParam) : Bytes × Bytes := (p.name, p.value.getD [])

theorem foldl_encode (p : UrlParam) (path : Bytes) (params : Params) :
    p.encode.foldl UrlState.step ⟨path, params, [], [], true, false⟩ =
      ⟨path, params, p.name, p.value.getD [], true, p.value.isSome⟩ := by
  obtain ⟨name, value, hne, hname, hvalue⟩ := p
  cases value with
  | none =>
    simp only [encode]
    rw [UrlState.foldl_name name rfl hname]
    rfl
  | some v =>
    simp only [encode]
    rw [List.foldl_append, UrlState.foldl_name name rfl hname, List.foldl_cons, UrlState.step_equals rfl rfl,
      UrlState.foldl_value v rfl rfl (hvalue v rfl)]
    rfl

end UrlParam

/-- `n1=v1&…&nk=vk`. -/
def encodeQuery : List UrlParam → Bytes
  | [] => []
  | [p] => p.encode
  | p :: q :: ps => p.encode ++ 38 :: encodeQuery (q :: ps)

theorem lookup_eq_none {params : Params} {name : Bytes} (h : name ∉ params.map Prod.fst) :
    params.lookup name = none := by
  induction params with
  | nil => rfl
  | cons e params ih =>
    simp only [List.map_cons, List.mem_cons, not_or] at h
    rw [List.lookup_cons, beq_false_of_ne h.1]
    exact ih h.2

/-- With one entry for a name, `lookup` is membership. -/
theorem lookup_eq_some_iff {params : Params} (h : (params.map Prod.fst).Nodup) {name value : Bytes} :
    params.lookup name = some value ↔ (name, value) ∈ params := by
  induction params with
  | nil => simp
  | cons e params ih =>
    obtain ⟨n, v⟩ := e
    simp only [List.map_cons, List.nodup_cons] at h
    rw [List.lookup_cons, List.mem_cons, Prod.mk.injEq]
    by_cases hn : name = n
    · subst hn
      have hmem : (name, value) ∉ params := fun hm => h.1 (List.mem_map_of_mem hm)
      simp [hmem, eq_comm]
    · rw [beq_false_of_ne hn]
      simp [hn, ih h.2]

/-- The pairs are taken one by one, the last by `finish`. -/
theorem finish_encodeQuery (path : Bytes) : ∀ {ps : List UrlParam} {params : Params}, ps ≠ [] →
    (ps.map UrlParam.name).Nodup → (∀ p ∈ ps, p.name ∉ params.map Prod.fst) →
    let u := ((encodeQuery ps).foldl UrlState.step ⟨path, params, [], [], true, false⟩).finish
    u.path = path ∧ u.urlParams = (ps.map UrlParam.entry).reverse ++ params
  | [], _, h, _, _ => absurd rfl h
  | [p], params, _, _, hnew => by
    have hlookup := lookup_eq_none (hnew p (by simp))
    have hlen : p.name.length > 0 := List.length_pos_iff.mpr p.name_ne_nil
    simp [encodeQuery, p.foldl_encode, UrlState.finish, hlen, Params.emplace, hlookup, UrlParam.entry]
  | p :: q :: ps, params, _, hnodup, hnew => by
    rw [List.map_cons, List.nodup_cons] at hnodup
    have hrest : ∀ r ∈ q :: ps, r.name ∉ (p.entry :: params).map Prod.fst := by
      intro r hr
      simp only [List.map_cons, List.mem_cons, not_or]
      refine ⟨fun e => hnodup.1 ?_, hnew r (List.mem_cons_of_mem _ hr)⟩
      rw [← show r.name = p.name from e]
      exact List.mem_map_of_mem hr
    have ih := finish_encodeQuery path (by simp) hnodup.2 hrest
    rw [encodeQuery, List.foldl_append, p.foldl_encode, List.foldl_cons, UrlState.step_ampersand rfl]
    simpa [Params.assign, UrlParam.entry] using ih

theorem parseTarget_encodeQuery {path : Bytes} (hpath : ∀ c ∈ path, isMark c = false) {ps : List UrlParam}
    (hne : ps ≠ []) (hnodup : (ps.map UrlParam.name).Nodup) :
    (parseTarget (path ++ 63 :: encodeQuery ps)).path = path ∧
      (parseTarget (path ++ 63 :: encodeQuery ps)).urlParams = (ps.map UrlParam.entry).reverse := by
  have hnew : ∀ p ∈ ps, p.name ∉ ([] : Params).map Prod.fst := by simp
  have h := finish_encodeQuery path hne hnodup hnew
  rw [parseTarget, List.foldl_append, UrlState.foldl_path path rfl hpath, List.foldl_cons,
    UrlState.step_mark _ (by decide)]
  simpa using h

theorem httpRequest_target (req : Request) :
    ∃ r, httpRequest req = some r ∧ r.path = (parseTarget req.target).path ∧
      r.urlParams = (parseTarget req.target).urlParams := by
  obtain ⟨r, hr⟩ := Option.isSome_iff_exists.mp (httpRequest_isSome req)
  refine ⟨r, hr, ?_⟩
  rw [httpRequest, Option.map_eq_some_iff] at hr
  obtain ⟨files, _, rfl⟩ := hr
  exact ⟨rfl, rfl⟩

/-- **A query that was written out is read back**: the path, and for each
name its own value. -/
theorem url_round_trip (req : Request) (path : Bytes) (hpath : ∀ c ∈ path, isMark c = false)
    (ps : List UrlParam) (hne : ps ≠ []) (hnodup : (ps.map UrlParam.name).Nodup)
    (htarget : req.target = path ++ 63 :: encodeQuery ps) :
    ∃ r, httpRequest req = some r ∧ r.path = path ∧
      ∀ name value, r.urlParams.lookup name = some value ↔
        ∃ p ∈ ps, p.name = name ∧ p.value.getD [] = value := by
  obtain ⟨r, hr, hrpath, hrparams⟩ := httpRequest_target req
  obtain ⟨hp, hparams⟩ := parseTarget_encodeQuery hpath hne hnodup
  rw [htarget] at hrpath hrparams
  refine ⟨r, hr, hrpath.trans hp, fun name value => ?_⟩
  have hkeys : (((ps.map UrlParam.entry).reverse).map Prod.fst).Nodup := by
    rw [List.map_reverse, List.nodup_reverse, List.map_map]
    exact hnodup
  rw [hrparams, hparams, lookup_eq_some_iff hkeys]
  simp [UrlParam.entry]

/-- `a==`: a value that starts with `=`. -/
def paramA : UrlParam where
  name := [97]
  value := some [61]
  name_ne_nil := List.cons_ne_nil _ _
  name_bytes := by simp [isMark]
  value_bytes := by simp [isMark]

/-- `b`, without a value. -/
def paramB : UrlParam where
  name := [98]
  value := none
  name_ne_nil := List.cons_ne_nil _ _
  name_bytes := by simp [isMark]
  value_bytes := by simp

def urlRequest : Request where
  method := .get
  methodString := text "GET"
  target := text "/f=&" ++ 63 :: encodeQuery [paramA, paramB]
  fields := []
  body := []
  method_ascii := get_ascii
  value_no_NUL := no_fields

theorem url_round_trip_two_pairs :
    ∃ r, httpRequest urlRequest = some r ∧ r.path = text "/f=&" ∧
      ∀ name value, r.urlParams.lookup name = some value ↔
        ∃ p ∈ [paramA, paramB], p.name = name ∧ p.value.getD [] = value :=
  url_round_trip urlRequest (text "/f=&") (by decide +kernel) [paramA, paramB] (by simp) (by decide +kernel) rfl

/-! ## The path -/

/-- The part before the first mark. -/
def pathPart (target : Bytes) : Bytes := target.takeWhile fun c => !isMark c

/-- What follows the first mark. -/
def query (target : Bytes) : Bytes := (target.dropWhile fun c => !isMark c).tail

/-- The pair that is being read at the end of `s`. -/
def lastPair (s : Bytes) : Bytes := s.rtakeWhile (· ≠ 38)

/-- Its name: a mark starts it again, `=` ends it, and a mark after `=` loses it. -/
def lastName (s : Bytes) : Bytes :=
  if ((lastPair s).dropWhile (· ≠ 61)).any isMark then []
  else ((lastPair s).takeWhile (· ≠ 61)).rtakeWhile fun c => !isMark c

/-- What precedes the last mark. -/
def beforeLastMark (s : Bytes) : Bytes := (s.rdropWhile fun c => !isMark c).dropLast

/-- No second mark, or one at which the name that is being read is the path. -/
def PathKept (target : Bytes) : Prop :=
  (∀ c ∈ query target, isMark c = false) ∨ lastName (beforeLastMark (query target)) = pathPart target

theorem isMark_ne {c : UInt8} (hc : isMark c = true) : c ≠ 38 ∧ c ≠ 61 := by
  rcases isMark_iff.mp hc with rfl | rfl <;> decide

theorem lastPair_concat {s : Bytes} {c : UInt8} (h : c ≠ 38) : lastPair (s ++ [c]) = lastPair s ++ [c] := by
  simp [lastPair, h]

@[simp] theorem lastPair_ampersand (s : Bytes) : lastPair (s ++ [38]) = [] := by simp [lastPair]

theorem lastName_ampersand (s : Bytes) : lastName (s ++ [38]) = [] := by simp [lastName]

theorem lastName_no_value {s : Bytes} (h : 61 ∉ lastPair s) :
    lastName s = (lastPair s).rtakeWhile fun c => !isMark c := by
  have hall : ∀ x ∈ lastPair s, decide (x ≠ 61) = true := fun x hx => decide_eq_true fun e => h (e ▸ hx)
  rw [lastName, List.takeWhile_eq_self_iff.mpr hall, List.dropWhile_eq_nil_iff.mpr hall]
  simp

theorem while_concat {s : Bytes} {d : UInt8} (h : d ∈ s) (c : UInt8) :
    (s ++ [c]).takeWhile (· ≠ d) = s.takeWhile (· ≠ d) ∧
      (s ++ [c]).dropWhile (· ≠ d) = s.dropWhile (· ≠ d) ++ [c] := by
  induction s with
  | nil => simp at h
  | cons x s ih =>
    by_cases hx : x = d
    · simp [hx]
    · have hs : d ∈ s := by simpa [Ne.symm hx] using h
      simpa [hx] using ih hs

theorem lastName_in_value {s : Bytes} (h : 61 ∈ lastPair s) {c : UInt8} (hna : c ≠ 38) :
    lastName (s ++ [c]) = if isMark c then [] else lastName s := by
  obtain ⟨htake, hdrop⟩ := while_concat h c
  rw [lastName, lastPair_concat hna, htake, hdrop, lastName]
  cases hc : isMark c <;> simp [hc]

theorem lastName_equals {s : Bytes} (h : 61 ∉ lastPair s) : lastName (s ++ [61]) = lastName s := by
  have hall : ∀ x ∈ lastPair s, decide (x ≠ 61) = true := fun x hx => decide_eq_true fun e => h (e ▸ hx)
  rw [lastName_no_value h, lastName, lastPair_concat (by decide), List.takeWhile_append_of_pos hall,
    List.dropWhile_append_of_pos hall]
  simp [show isMark 61 = false from by decide]

theorem lastName_byte {s : Bytes} (h : 61 ∉ lastPair s) {c : UInt8} (hna : c ≠ 38) (hne : c ≠ 61) :
    lastName (s ++ [c]) = if isMark c then [] else lastName s ++ [c] := by
  have h' : 61 ∉ lastPair (s ++ [c]) := by simp [lastPair_concat hna, h, Ne.symm hne]
  rw [lastName_no_value h', lastName_no_value h, lastPair_concat hna, List.rtakeWhile_concat]
  cases hc : isMark c <;> simp

/-- What is accumulated after the first mark, and what became of the path. -/
theorem foldl_query (path : Bytes) (params : Params) (q : Bytes) : ∃ params' value,
    q.foldl UrlState.step ⟨path, params, [], [], true, false⟩ =
      ⟨if q.any isMark then lastName (beforeLastMark q) else path, params', lastName q, value, true,
        decide (61 ∈ lastPair q)⟩ := by
  induction q using List.reverseRecOn with
  | nil => exact ⟨params, [], by simp [lastName, lastPair]⟩
  | append_singleton q c ih =>
    obtain ⟨params', value, ih⟩ := ih
    rw [List.foldl_append, ih, List.foldl_cons, List.foldl_nil]
    cases hc : isMark c with
    | true =>
      obtain ⟨hna, hne⟩ := isMark_ne hc
      have hname : lastName (q ++ [c]) = [] := by
        by_cases hv : 61 ∈ lastPair q
        · rw [lastName_in_value hv hna, if_pos hc]
        · rw [lastName_byte hv hna hne, if_pos hc]
      refine ⟨params', value, ?_⟩
      rw [UrlState.step_mark _ hc, hname, lastPair_concat hna]
      simp [hc, beforeLastMark, Ne.symm hne]
    | false =>
      have hpath : (if (q ++ [c]).any isMark then lastName (beforeLastMark (q ++ [c])) else path) =
          if q.any isMark then lastName (beforeLastMark q) else path := by
        simp [hc, beforeLastMark]
      rw [hpath]
      by_cases hna : c = 38
      · subst hna
        refine ⟨params'.assign (lastName q) value, [], ?_⟩
        rw [UrlState.step_ampersand rfl, lastName_ampersand, lastPair_ampersand]
        simp
      · rw [lastPair_concat hna]
        by_cases hv : 61 ∈ lastPair q
        · refine ⟨params', value ++ [c], ?_⟩
          rw [UrlState.step_value rfl (decide_eq_true hv) hc hna, lastName_in_value hv hna]
          simp [hc, hv]
        · by_cases hne : c = 61
          · subst hne
            refine ⟨params', value, ?_⟩
            rw [UrlState.step_equals rfl (decide_eq_false hv), lastName_equals hv]
            simp
          · refine ⟨params', value, ?_⟩
            rw [UrlState.step_name (decide_eq_false hv) hc hne hna, lastName_byte hv hna hne]
            simp [hc, hv, Ne.symm hne]

theorem finish_in_params {u : UrlState} (hp : u.inParams = true) : u.finish.path = u.path := by
  rw [UrlState.finish, if_pos hp]
  split <;> rfl

theorem finish_no_params (s : Bytes) : (UrlState.finish { currentParamName := s }).path = s := by
  cases s <;> rfl

theorem parseTarget_path (target : Bytes) :
    (parseTarget target).path =
      if (query target).any isMark then lastName (beforeLastMark (query target)) else pathPart target := by
  have hpart : ∀ c ∈ pathPart target, isMark c = false := by
    intro c hc
    simpa using List.mem_takeWhile_imp hc
  have hsplit : pathPart target ++ target.dropWhile (fun c => !isMark c) = target := List.takeWhile_append_dropWhile
  have hfold : target.foldl UrlState.step {} =
      (target.dropWhile fun c => !isMark c).foldl UrlState.step { currentParamName := pathPart target } := by
    conv_lhs => rw [← hsplit, List.foldl_append, UrlState.foldl_path _ rfl hpart]
    rfl
  rw [parseTarget, hfold, query]
  cases hrest : target.dropWhile (fun c => !isMark c) with
  | nil => exact finish_no_params _
  | cons m q =>
    have hm : isMark m = true := by
      have hhead := List.head_dropWhile_not (fun c => !isMark c) (l := target) (by simp [hrest])
      simpa [hrest] using hhead
    obtain ⟨params', value, hq⟩ := foldl_query (pathPart target) [] q
    rw [List.foldl_cons, UrlState.step_mark _ hm, hq, finish_in_params rfl]
    rfl

theorem parseTarget_path_eq (target : Bytes) : (parseTarget target).path = pathPart target ↔ PathKept target := by
  rw [parseTarget_path, PathKept]
  cases h : (query target).any isMark with
  | true =>
    obtain ⟨c, hc, hm⟩ := List.any_eq_true.mp h
    have hmarks : ¬ ∀ c ∈ query target, isMark c = false := by
      intro hall
      simp [hall c hc] at hm
    simp [hmarks]
  | false =>
    have hnone : ∀ c ∈ query target, isMark c = false := by
      intro c hc
      simpa using List.any_eq_false.mp h c hc
    exact iff_of_true (if_neg (by simp)) (.inl hnone)

/-- **The route is that of the part before the first mark** exactly when no
later mark puts another name there. -/
theorem route_of_path_part (req : Request) :
    (∃ r, httpRequest req = some r ∧ r.path = pathPart req.target ∧
      ∀ env routes, findRoute env routes r.path = findRoute env routes (pathPart req.target)) ↔
      PathKept req.target := by
  obtain ⟨r, hr, hpath, -⟩ := httpRequest_target req
  rw [← parseTarget_path_eq, ← hpath, hr]
  constructor
  · intro h
    obtain ⟨r', hr', hkept, -⟩ := h
    cases hr'
    exact hkept
  · intro h
    exact ⟨r, rfl, h, fun env routes => by rw [h]⟩

/-- `/files?name=a?b`. -/
def secondMarkRequest : Request where
  method := .get
  methodString := text "GET"
  target := text "/files?name=a?b"
  fields := []
  body := []
  method_ascii := get_ascii
  value_no_NUL := no_fields

/-- The path of `/files?name=a?b` is `name`. -/
theorem second_mark_path :
    ¬ ∀ req : Request, ∃ r, httpRequest req = some r ∧ r.path = pathPart req.target ∧
      ∀ env routes, findRoute env routes r.path = findRoute env routes (pathPart req.target) := by
  intro h
  obtain ⟨r, hr, hpath, -⟩ := h secondMarkRequest
  obtain ⟨r', hr', hpath', -⟩ := httpRequest_target secondMarkRequest
  rw [hr] at hr'
  cases hr'
  rw [hpath] at hpath'
  revert hpath'
  decide

end AudioToolApi
