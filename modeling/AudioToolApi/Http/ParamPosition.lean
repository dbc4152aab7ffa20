/-
What a parameter's position in the target has to do with its value
(http/http_request.cpp).

A pair that a `&` follows is stored with `operator[]`, the last pair with
`emplace` and only if it has a name. So the last pair is read otherwise than
it would be with another pair after it exactly when its name was there
before with another value, or is empty and was not there
(`appended_pair_iff`).
-/
import AudioToolApi.Http.TargetFacts

namespace AudioToolApi

/-- A piece of a query: the name before the first `=`, the value after it. -/
def splitPair (piece : Bytes) : Bytes × Bytes :=
  (piece.takeWhile (· ≠ 61), (piece.dropWhile (· ≠ 61)).tail)

/-- The pairs of a query. -/
def queryPairs (q : Bytes) : List (Bytes × Bytes) := (q.splitOn 38).map splitPair

/-- The last of them, and those before it. -/
def finalPair (q : Bytes) : Bytes × Bytes := (queryPairs q).getLastD ([], [])

def earlierPairs (q : Bytes) : List (Bytes × Bytes) := (queryPairs q).dropLast

theorem queryPairs_ne_nil (q : Bytes) : queryPairs q ≠ [] := by
  simp [queryPairs, List.splitOn_ne_nil]

theorem queryPairs_eq (q : Bytes) : queryPairs q = earlierPairs q ++ [finalPair q] := by
  have h := List.dropLast_append_getLast (queryPairs_ne_nil q)
  rw [earlierPairs, finalPair, List.getLastD_eq_getLast?, List.getLast?_eq_some_getLast (queryPairs_ne_nil q)]
  exact h.symm

theorem queryPairs_piece {s : Bytes} (h : 38 ∉ s) : queryPairs s = [splitPair s] := by
  rw [queryPairs, List.splitOn_eq_singleton h]
  rfl

theorem queryPairs_append (s q : Bytes) : queryPairs (s ++ 38 :: q) = queryPairs s ++ queryPairs q := by
  rw [queryPairs, List.splitOn_append_cons_self, List.map_append]
  rfl

/-! ## The pairs are what the loop stores -/

theorem splitPair_name {s : Bytes} (h : 61 ∉ s) : splitPair s = (s, []) := by
  have hall : ∀ c ∈ s, decide (c ≠ 61) = true := fun c hc => decide_eq_true fun e => h (e ▸ hc)
  rw [splitPair, List.takeWhile_eq_self_iff.mpr hall, List.dropWhile_eq_nil_iff.mpr hall]
  rfl

theorem splitPair_value {name : Bytes} (h : 61 ∉ name) (value : Bytes) :
    splitPair (name ++ 61 :: value) = (name, value) := by
  have hall : ∀ c ∈ name, decide (c ≠ 61) = true := fun c hc => decide_eq_true fun e => h (e ▸ hc)
  rw [splitPair, List.takeWhile_append_of_pos hall, List.dropWhile_append_of_pos hall]
  simp

/-- A piece without `&`. -/
theorem foldl_piece {s : Bytes} (h : 38 ∉ s) (hs : ∀ c ∈ s, isMark c = false) (path : Bytes) (params : Params) :
    ∃ inValue, s.foldl UrlState.step ⟨path, params, [], [], true, false⟩ =
      ⟨path, params, (splitPair s).1, (splitPair s).2, true, inValue⟩ := by
  have hna : ∀ c ∈ s, c ≠ 38 := fun c hc e => h (e ▸ hc)
  by_cases heq : 61 ∈ s
  · obtain ⟨name, value, rfl, hname⟩ := List.eq_append_cons_of_mem heq
    have hbytes : ∀ c ∈ name, isMark c = false ∧ c ≠ 61 ∧ c ≠ 38 := fun c hc =>
      ⟨hs c (by simp [hc]), fun e => hname (e ▸ hc), hna c (by simp [hc])⟩
    have hvalue : ∀ c ∈ value, isMark c = false ∧ c ≠ 38 := fun c hc => ⟨hs c (by simp [hc]), hna c (by simp [hc])⟩
    refine ⟨true, ?_⟩
    rw [List.foldl_append, UrlState.foldl_name name rfl hbytes, List.foldl_cons, UrlState.step_equals rfl rfl,
      UrlState.foldl_value value rfl rfl hvalue, splitPair_value hname]
    rfl
  · refine ⟨false, ?_⟩
    rw [UrlState.foldl_name s rfl fun c hc => ⟨hs c hc, fun e => heq (e ▸ hc), hna c hc⟩, splitPair_name heq]
    rfl

/-- All the pairs but the last are stored when it is reached. The induction
is on the length: the first piece is taken off. -/
theorem foldl_pairs (path : Bytes) {q : Bytes} (hq : ∀ c ∈ q, isMark c = false) (params : Params) :
    ∃ inValue, q.foldl UrlState.step ⟨path, params, [], [], true, false⟩ =
      ⟨path, (earlierPairs q).reverse ++ params, (finalPair q).1, (finalPair q).2, true, inValue⟩ := by
  induction hn : q.length using Nat.strong_induction_on generalizing q params with
  | _ n ih =>
    by_cases h : 38 ∈ q
    · obtain ⟨s, q', rfl, hs⟩ := List.eq_append_cons_of_mem h
      obtain ⟨b, hpiece⟩ := foldl_piece hs (fun c hc => hq c (by simp [hc])) path params
      obtain ⟨inValue, hrest⟩ := ih q'.length (by simp only [List.length_append, List.length_cons] at hn; omega)
        (fun c hc => hq c (by simp [hc])) (params.assign (splitPair s).1 (splitPair s).2) rfl
      have hpairs : queryPairs (s ++ 38 :: q') = splitPair s :: queryPairs q' := by
        rw [queryPairs_append, queryPairs_piece hs]
        rfl
      have hearlier : earlierPairs (s ++ 38 :: q') = splitPair s :: earlierPairs q' := by
        rw [earlierPairs, hpairs, List.dropLast_cons_of_ne_nil (queryPairs_ne_nil q')]
        rfl
      have hfinal : finalPair (s ++ 38 :: q') = finalPair q' := by
        rw [finalPair, hpairs, queryPairs_eq q', ← List.cons_append, List.getLastD_concat]
      refine ⟨inValue, ?_⟩
      rw [List.foldl_append, hpiece, List.foldl_cons, UrlState.step_ampersand rfl, hrest, hearlier, hfinal]
      simp [Params.assign]
    · obtain ⟨inValue, hpiece⟩ := foldl_piece h hq path params
      refine ⟨inValue, ?_⟩
      rw [hpiece, earlierPairs, finalPair, queryPairs_piece h]
      rfl

/-! ## With another pair after it -/

/-- One `?`, and no `#`. -/
def OneMark (t : Bytes) : Prop := t.count 63 = 1 ∧ 35 ∉ t

theorem OneMark.split {t : Bytes} (h : OneMark t) :
    ∃ p q, t = p ++ 63 :: q ∧ (∀ c ∈ p, isMark c = false) ∧ ∀ c ∈ q, isMark c = false := by
  obtain ⟨hcount, hhash⟩ := h
  obtain ⟨p, q, rfl, hp⟩ := List.eq_append_cons_of_mem (List.count_pos_iff.mp (by rw [hcount]; omega))
  rw [List.count_append, List.count_cons_self, List.count_eq_zero_of_not_mem hp] at hcount
  have hq : 63 ∉ q := List.count_eq_zero.mp (by omega)
  refine ⟨p, q, rfl, fun c hc => ?_, fun c hc => ?_⟩
  · simp only [isMark, Bool.or_eq_false_iff, decide_eq_false_iff_not]
    exact ⟨fun e => hp (e ▸ hc), fun e => hhash (by simp [← e, hc])⟩
  · simp only [isMark, Bool.or_eq_false_iff, decide_eq_false_iff_not]
    exact ⟨fun e => hq (e ▸ hc), fun e => hhash (by simp [← e, hc])⟩

theorem query_eq {p q : Bytes} (hp : ∀ c ∈ p, isMark c = false) : query (p ++ 63 :: q) = q := by
  have hall : ∀ c ∈ p, (!isMark c) = true := by
    intro c hc
    simp [hp c hc]
  rw [query, List.dropWhile_append_of_pos hall]
  rfl

/-- What the parameters are: the pairs before the last as they were, and the
last if it has a name that is not there. -/
theorem parseTarget_params {p q : Bytes} (hp : ∀ c ∈ p, isMark c = false) (hq : ∀ c ∈ q, isMark c = false) :
    (parseTarget (p ++ 63 :: q)).urlParams =
      if (finalPair q).1 = [] then (earlierPairs q).reverse
      else Params.emplace (earlierPairs q).reverse (finalPair q).1 (finalPair q).2 := by
  obtain ⟨inValue, hpairs⟩ := foldl_pairs p hq []
  have hfold : (p ++ 63 :: q).foldl UrlState.step {} = q.foldl UrlState.step ⟨p, [], [], [], true, false⟩ := by
    rw [List.foldl_append, UrlState.foldl_path p rfl hp, List.foldl_cons, UrlState.step_mark _ (by decide)]
    rfl
  rw [parseTarget, hfold, hpairs, UrlState.finish, List.append_nil]
  cases hname : (finalPair q).1 with
  | nil => rfl
  | cons c cs => simp

theorem lookup_emplace_self (ps : Params) (name value : Bytes) :
    (ps.emplace name value).lookup name = some ((ps.lookup name).getD value) := by
  unfold Params.emplace
  cases h : ps.lookup name <;> simp [h]

theorem lookup_emplace_other (ps : Params) {name k : Bytes} (value : Bytes) (h : k ≠ name) :
    (ps.emplace name value).lookup k = ps.lookup k := by
  unfold Params.emplace
  split
  · rfl
  · rw [List.lookup_cons, beq_false_of_ne h]

/-- `url_params[name]`: a name that is not there gets the empty string. -/
def HttpRequest.param (r : HttpRequest) (name : Bytes) : Bytes := (r.urlParams.lookup name).getD []

/-- The two requests have the parameter alike. -/
def SameParam (k : Bytes) (r r' : HttpRequest) : Prop := r'.hasParam k = r.hasParam k ∧ r'.param k = r.param k

theorem sameParam_iff {k : Bytes} {r r' : HttpRequest} :
    SameParam k r r' ↔ r'.urlParams.lookup k = r.urlParams.lookup k := by
  unfold SameParam HttpRequest.hasParam HttpRequest.param
  cases r'.urlParams.lookup k <;> cases r.urlParams.lookup k <;> simp

/-- If the last pair is named `k`, the last pair of that name before it has
the same value, or there is none and `k` is not empty. -/
def LastPairAgrees (q k : Bytes) : Prop :=
  (finalPair q).1 = k →
    match (earlierPairs q).reverse.lookup k with
    | some value => value = (finalPair q).2
    | none => k ≠ []

/-- A value: it reaches to the next pair. -/
def IsValue (w : Bytes) : Prop := ∀ c ∈ w, isMark c = false ∧ c ≠ 38

/-- A name: it reaches to the `=`. -/
def IsName (z : Bytes) : Prop := ∀ c ∈ z, isMark c = false ∧ c ≠ 61 ∧ c ≠ 38

/-- With another pair after them, all the pairs of `q` are stored. -/
theorem parseTarget_appended {p q z w : Bytes} (hp : ∀ c ∈ p, isMark c = false) (hq : ∀ c ∈ q, isMark c = false)
    (hz : IsName z) (hne : z ≠ []) (hw : IsValue w) :
    (parseTarget (p ++ 63 :: (q ++ 38 :: (z ++ 61 :: w)))).urlParams =
      Params.emplace (queryPairs q).reverse z w := by
  have hmarks : ∀ c ∈ q ++ 38 :: (z ++ 61 :: w), isMark c = false := by
    intro c hc
    simp only [List.mem_append, List.mem_cons] at hc
    rcases hc with hc | rfl | hc | rfl | hc
    · exact hq c hc
    · decide
    · exact (hz c hc).1
    · decide
    · exact (hw c hc).1
  have hamp : 38 ∉ z ++ 61 :: w := by
    intro hc
    simp only [List.mem_append, List.mem_cons] at hc
    rcases hc with hc | hc | hc
    · exact (hz _ hc).2.2 rfl
    · cases hc
    · exact (hw _ hc).2 rfl
  have hpairs : queryPairs (q ++ 38 :: (z ++ 61 :: w)) = queryPairs q ++ [(z, w)] := by
    rw [queryPairs_append, queryPairs_piece hamp, splitPair_value fun hc => (hz _ hc).2.1 rfl]
  have hearlier : earlierPairs (q ++ 38 :: (z ++ 61 :: w)) = queryPairs q := by
    rw [earlierPairs, hpairs, List.dropLast_concat]
  have hfinal : finalPair (q ++ 38 :: (z ++ 61 :: w)) = (z, w) := by
    rw [finalPair, hpairs, List.getLastD_concat]
  rw [parseTarget_params hp hmarks, hearlier, hfinal, if_neg hne]

theorem appended_lookup_iff {q k z : Bytes} (w : Bytes) (hk : z ≠ k) :
    (Params.emplace (queryPairs q).reverse z w).lookup k =
      (if (finalPair q).1 = [] then (earlierPairs q).reverse
        else Params.emplace (earlierPairs q).reverse (finalPair q).1 (finalPair q).2).lookup k ↔
      LastPairAgrees q k := by
  rw [lookup_emplace_other _ _ (Ne.symm hk), queryPairs_eq, List.reverse_append, LastPairAgrees]
  obtain ⟨name, value⟩ := finalPair q
  simp only [List.reverse_cons, List.reverse_nil, List.nil_append, List.cons_append, List.lookup_cons]
  by_cases hname : k = name
  · -- the last pair's own name: in the loop its value wins, at the end it does not
    subst hname
    rw [beq_self_eq_true]
    by_cases hempty : k = []
    · rw [if_pos hempty]
      cases (earlierPairs q).reverse.lookup k <;> simp [hempty, eq_comm]
    · rw [if_neg hempty, lookup_emplace_self]
      cases (earlierPairs q).reverse.lookup k <;> simp [hempty, eq_comm]
  · rw [beq_false_of_ne hname]
    refine iff_of_true ?_ fun h => absurd h.symm hname
    by_cases hempty : name = []
    · rw [if_pos hempty]
    · rw [if_neg hempty, lookup_emplace_other _ _ hname]

/-- **When a parameter's value does not depend on its position.** For a
target with one `?` and no `#`: another pair after it leaves the parameter
`k` as it was if and only if `k` is not the last pair's name, or that pair
agrees with what was there before it. -/
theorem appended_pair_iff (req : Request) (ht : OneMark req.target) (k z w : Bytes) (hz : IsName z) (hne : z ≠ [])
    (hk : z ≠ k) (hw : IsValue w) :
    ∃ r r', httpRequest req = some r ∧
      httpRequest { req with target := req.target ++ text "&" ++ z ++ text "=" ++ w } = some r' ∧
      (SameParam k r r' ↔ LastPairAgrees (query req.target) k) := by
  obtain ⟨r, hr, -, hparams⟩ := httpRequest_target req
  obtain ⟨r', hr', -, hparams'⟩ :=
    httpRequest_target { req with target := req.target ++ text "&" ++ z ++ text "=" ++ w }
  refine ⟨r, r', hr, hr', ?_⟩
  obtain ⟨p, q, hpq, hp, hq⟩ := ht.split
  have htarget : req.target ++ text "&" ++ z ++ text "=" ++ w = p ++ 63 :: (q ++ 38 :: (z ++ 61 :: w)) := by
    rw [hpq, show text "&" = [38] by decide, show text "=" = [61] by decide]
    simp
  rw [sameParam_iff, hparams, hparams', htarget, parseTarget_appended hp hq hz hne hw, hpq, query_eq hp,
    parseTarget_params hp hq]
  exact appended_lookup_iff w hk

/-- `/file?k=1&k=2`. -/
def repeatedRequest : Request where
  method := .get
  methodString := text "GET"
  target := text "/file?k=1&k=2"
  fields := []
  body := []
  method_ascii := get_ascii
  value_no_NUL := no_fields

theorem repeatedRequest_oneMark : OneMark repeatedRequest.target := by
  unfold OneMark
  decide

/-- A name that is not the last pair's. -/
theorem appended_pair_iff_other_name :
    ∃ r r', httpRequest repeatedRequest = some r ∧
      httpRequest { repeatedRequest with target := repeatedRequest.target ++ text "&" ++ [122] ++ text "=" ++ [57] } =
        some r' ∧
      (SameParam [106] r r' ↔ LastPairAgrees (query repeatedRequest.target) [106]) :=
  appended_pair_iff repeatedRequest repeatedRequest_oneMark [106] [122] [57] (by simp [IsName, isMark]) (by simp)
    (by decide) (by simp [IsValue, isMark])

/-- The first value of `k` is read from `/file?k=1&k=2`, the second from
`/file?k=1&k=2&z=9`. -/
theorem repeated_name_depends_on_position :
    ¬ ∀ (req : Request) (k z w : Bytes), OneMark req.target → IsName z → z ≠ [] → z ≠ k → IsValue w →
      ∃ r r', httpRequest req = some r ∧
        httpRequest { req with target := req.target ++ text "&" ++ z ++ text "=" ++ w } = some r' ∧
        SameParam k r r' := by
  intro h
  obtain ⟨r, r', hr, hr', hsame⟩ := h repeatedRequest [107] [122] [57] repeatedRequest_oneMark
    (by simp [IsName, isMark]) (by simp) (by decide) (by simp [IsValue, isMark])
  obtain ⟨s, hs, -, hparams⟩ := httpRequest_target repeatedRequest
  obtain ⟨s', hs', -, hparams'⟩ := httpRequest_target
    { repeatedRequest with target := repeatedRequest.target ++ text "&" ++ [122] ++ text "=" ++ [57] }
  rw [hr] at hs
  rw [hr'] at hs'
  cases hs
  cases hs'
  rw [sameParam_iff, hparams, hparams'] at hsame
  revert hsame
  decide

end AudioToolApi
