/-
The boundary that a content type declares, and the one that `http_request`
takes from it: the declared one decides the files only where the raw text
after `boundary=` is the same.
-/
import AudioToolApi.Http.RequestFacts

namespace AudioToolApi

open Multipart

/-! ## What a content type declares -/

/-- A byte of a token: no blank, no control character, none of `tspecials`. -/
def isTokenByte (c : UInt8) : Bool := 33 ≤ c && c ≤ 126 && !(text "()<>@,;:\\\"/[]?=").contains c

def IsToken (s : Bytes) : Prop := s ≠ [] ∧ ∀ c ∈ s, isTokenByte c = true

/-- A byte that may stand between double quotes. -/
def isQuotable (c : UInt8) : Bool := c ≠ 0 && c ≠ CR && c ≠ LF

/-- The inside of a quoted string, and the value it stands for. -/
inductive QuotedText : Bytes → Bytes → Prop
  | nil : QuotedText [] []
  | byte {c q v} : isQuotable c = true → c ≠ 34 → c ≠ 92 → QuotedText q v → QuotedText (c :: q) (c :: v)
  | pair {c q v} : isQuotable c = true → QuotedText q v → QuotedText (92 :: c :: q) (c :: v)

/-- A value, bare or in double quotes. -/
inductive ValueText : Bytes → Bytes → Prop
  | token {v} : IsToken v → ValueText v v
  | quoted {q v} : QuotedText q v → ValueText (34 :: q ++ [34]) v

/-- The parameters, each after a `;` and blanks. -/
inductive ParamsText : Bytes → List (Bytes × Bytes) → Prop
  | nil : ParamsText [] []
  | cons {blanks name value w s params} : (∀ c ∈ blanks, c = 32 ∨ c = 9) → IsToken name → ValueText w value →
      ParamsText s params → ParamsText (59 :: blanks ++ name ++ 61 :: w ++ s) ((name, value) :: params)

/-- A byte of a boundary. -/
def isBoundaryByte (c : UInt8) : Bool :=
  97 ≤ toLower c && toLower c ≤ 122 || 48 ≤ c && c ≤ 57 || (text "'()+_,-./:=? ").contains c

/-- 1 to 70 bytes, of which the last is no blank. -/
def IsBoundary (b : Bytes) : Prop :=
  0 < b.length ∧ b.length ≤ 70 ∧ (∀ c ∈ b, isBoundaryByte c = true) ∧ b.getLast? ≠ some 32

/-- The content type is `multipart`, and `b` is its parameter `boundary`. -/
def Declares (contentType b : Bytes) : Prop :=
  ∃ type subtype s params, iequals type (text "multipart") = true ∧ IsToken subtype ∧ ParamsText s params ∧
    contentType = type ++ 47 :: subtype ++ s ∧
    (params.filter fun param => iequals param.1 (text "boundary")).map Prod.snd = [b] ∧ IsBoundary b

/-! ## What is taken from it -/

/-- All that follows the first `boundary=`. -/
def boundaryText (contentType : Bytes) : Option Bytes :=
  (find (text "boundary=") contentType).map fun index => contentType.drop (index + 9)

/-- Neither value contains `multipart`; or both do, and what follows their
first `boundary=` is the same, or neither has one and they are the same. -/
def SameText (contentType contentType' : Bytes) : Prop :=
  (find (text "multipart") contentType).isSome = (find (text "multipart") contentType').isSome ∧
    ((find (text "multipart") contentType).isSome = true →
      boundaryText contentType = boundaryText contentType' ∧
        (boundaryText contentType = none → contentType = contentType'))

theorem multipartBoundary_eq (contentType : Bytes) :
    multipartBoundary contentType =
      match boundaryText contentType with
      | some s => text "--" ++ s
      | none => contentType := by
  rw [multipartBoundary, boundaryText]
  cases find (text "boundary=") contentType <;> rfl

theorem parseFiles_same {contentType contentType' : Bytes} (h : SameText contentType contentType') (body : Bytes) :
    parseFiles contentType body = parseFiles contentType' body := by
  obtain ⟨hm, hb⟩ := h
  rw [parseFiles, parseFiles, ← hm]
  split
  · rename_i hmultipart
    obtain ⟨hb, hnone⟩ := hb hmultipart
    rw [multipartBoundary_eq, multipartBoundary_eq, ← hb]
    cases ht : boundaryText contentType with
    | some s => rfl
    | none => rw [← hnone ht]
  · rfl

/-! ## No CR and no NUL -/

def Plain (s : Bytes) : Prop := CR ∉ s ∧ 0 ∉ s

theorem Plain.append {s t : Bytes} (hs : Plain s) (ht : Plain t) : Plain (s ++ t) := by
  simp only [Plain, List.mem_append, not_or]
  exact ⟨⟨hs.1, ht.1⟩, hs.2, ht.2⟩

theorem Plain.cons {s : Bytes} {c : UInt8} (hc : c ≠ CR ∧ c ≠ 0) (hs : Plain s) : Plain (c :: s) := by
  simp only [Plain, List.mem_cons, not_or]
  exact ⟨⟨hc.1.symm, hs.1⟩, hc.2.symm, hs.2⟩

theorem plain_nil : Plain [] := by simp [Plain]

theorem plain_of_forall {s : Bytes} (h : ∀ c ∈ s, c ≠ CR ∧ c ≠ 0) : Plain s :=
  ⟨fun hc => (h _ hc).1 rfl, fun hc => (h _ hc).2 rfl⟩

theorem IsToken.plain {s : Bytes} (h : IsToken s) : Plain s := by
  refine plain_of_forall fun c hc => ?_
  have htoken := h.2 c hc
  constructor
  · intro e
    subst e
    revert htoken
    decide
  · intro e
    subst e
    revert htoken
    decide

theorem QuotedText.plain {q v : Bytes} (h : QuotedText q v) : Plain q := by
  have quotable {c : UInt8} (hc : isQuotable c = true) : c ≠ CR ∧ c ≠ 0 := by
    simp only [isQuotable, Bool.and_eq_true, decide_eq_true_eq] at hc
    exact ⟨hc.1.2, hc.1.1⟩
  induction h with
  | nil => exact plain_nil
  | byte hc _ _ _ ih => exact .cons (quotable hc) ih
  | pair hc _ ih => exact .cons (by decide) (.cons (quotable hc) ih)

theorem ValueText.plain {w v : Bytes} (h : ValueText w v) : Plain w := by
  cases h with
  | token h => exact h.plain
  | quoted h => exact (Plain.cons (by decide) h.plain).append (.cons (by decide) plain_nil)

theorem ParamsText.plain {s : Bytes} {params : List (Bytes × Bytes)} (h : ParamsText s params) : Plain s := by
  induction h with
  | nil => exact plain_nil
  | cons hblanks hname hvalue _ ih =>
    have hblanks := plain_of_forall fun c hc => by
      rcases hblanks c hc with rfl | rfl <;> decide
    exact ((Plain.cons (by decide) hblanks).append hname.plain).append (.cons (by decide) hvalue.plain) |>.append ih

theorem toLower_plain {c : UInt8} (h : 97 ≤ toLower c) : c ≠ CR ∧ c ≠ 0 := by
  constructor
  · intro e
    subst e
    revert h
    decide
  · intro e
    subst e
    revert h
    decide

theorem multipart_lower {type : Bytes} (h : iequals type (text "multipart") = true) :
    type.map toLower = [109, 117, 108, 116, 105, 112, 97, 114, 116] := by
  have hm : (text "multipart").map toLower = [109, 117, 108, 116, 105, 112, 97, 114, 116] := by decide
  rw [← hm]
  exact eq_of_beq h

theorem Declares.plain {contentType b : Bytes} (h : Declares contentType b) : Plain contentType := by
  obtain ⟨type, subtype, s, params, htype, hsubtype, hs, rfl, -, -⟩ := h
  have hplain : Plain type := plain_of_forall fun c hc => by
    have hmem : toLower c ∈ type.map toLower := List.mem_map_of_mem hc
    rw [multipart_lower htype] at hmem
    have hletters : ∀ c ∈ ([109, 117, 108, 116, 105, 112, 97, 114, 116] : Bytes), 97 ≤ c := by simp
    exact toLower_plain (hletters _ hmem)
  exact (hplain.append (.cons (by decide) hsubtype.plain)).append hs.plain

/-- It does not start with a hyphen. -/
theorem Declares.ne_hyphens {contentType b s : Bytes} (h : Declares contentType b) : contentType ≠ text "--" ++ s := by
  obtain ⟨type, subtype, t, params, htype, -, -, rfl, -, -⟩ := h
  have hhyphens : text "--" = [45, 45] := by decide
  have hlower := multipart_lower htype
  cases type with
  | nil => simp at hlower
  | cons c type =>
    intro e
    simp only [hhyphens, List.cons_append, List.cons.injEq] at e
    obtain ⟨rfl, -⟩ := e
    simp [toLower] at hlower

/-! ## A body with one part -/

variable {d e x rest : Bytes} {p : Parser} {i n : Nat} {buf : Bytes}

/-- What starts with the line of another delimiter is given up. -/
theorem start_mismatch {done : Bytes} {fuel : Nat} {q : Parser} (h : Holds (done ++ e) p)
    (hs : p.state = .startBoundary) (hk : p.index = done.length) (hr : buf.drop i = x ++ CR :: rest) (hx : CR ∉ x)
    (he : CR ∉ e) (hne : x ≠ e) (hloop : loop buf fuel i p = some (.returned n q)) : q.files = p.files := by
  -- a byte that ends the parser
  have hgives {c : UInt8} {fuel i : Nat} {p q : Parser} (hi : buf[i]? = some c) (ht : turn buf i c p = .ret i p)
      (hloop : loop buf fuel i p = some (.returned n q)) : q.files = p.files := by
    cases fuel with
    | zero => cases hloop
    | succ fuel =>
      simp only [loop, hi, ht] at hloop
      cases hloop
      rfl
  induction e generalizing done i p x fuel with
  | nil =>
    -- the delimiter is over, and CR does not follow
    obtain ⟨c, x, rfl⟩ := List.exists_cons_of_ne_nil hne
    obtain ⟨hi, -⟩ := reads_cons hr
    have hc : c ≠ CR := fun e => hx (e ▸ .head _)
    have hlast : p.index = p.boundaryLength := by rw [hk, h.boundaryLength, List.append_nil]
    refine hgives hi ?_ hloop
    simp only [turn, hs, startBoundary, if_pos hlast, if_pos hc]
  | cons b e ih =>
    cases x with
    | nil =>
      obtain ⟨hi, -⟩ := reads_cons hr
      have hc : CR ≠ b := fun e => he (e ▸ .head _)
      exact hgives hi (by rw [turn_startBoundary h hs hk, if_pos hc]) hloop
    | cons c x =>
      obtain ⟨hi, hr⟩ := reads_cons hr
      by_cases hc : c = b
      · subst hc
        cases fuel with
        | zero => cases hloop
        | succ fuel =>
          obtain ⟨hh, hlen⟩ := h.startNext hk
          simp only [loop, hi, turn_startBoundary h hs hk, if_neg (not_not_intro rfl)] at hloop
          exact @ih x { p with index := p.index + 1 } (i + 1) (done ++ [c]) fuel hh hs hlen hr (fun h => hx (.tail _ h))
            (fun h => he (.tail _ h)) (fun e => hne (by rw [e])) hloop
      · exact hgives hi (by rw [turn_startBoundary h hs hk, if_pos hc]) hloop

/-- A body with one empty part, for the delimiter `d`. -/
def onePart (d : Bytes) : Bytes := d ++ encodeParts d [⟨[], []⟩]

theorem execute_onePart_other {d' : Bytes} (hd' : CR ∉ d') (hd : CR ∉ d) (h0 : 0 ∉ d) (hne : d' ≠ d) {q : Parser}
    (h : multipartParserExecute (init d) (onePart d') = some (.returned n q)) : q.files = [] := by
  have hh := init_holds h0
  have hstart : Holds ([] ++ d) { init d with state := .startBoundary } :=
    ⟨hh.boundary, hh.boundaryLength, hh.lookbehind⟩
  obtain ⟨rest, hrest⟩ : ∃ rest, onePart d' = d' ++ CR :: rest := ⟨_, rfl⟩
  have hr : (onePart d').drop 0 = d' ++ CR :: rest := hrest
  obtain ⟨c, s, hcs⟩ : ∃ c s, onePart d' = c :: s := by
    rw [hrest]
    cases d' <;> exact ⟨_, _, rfl⟩
  have henter : multipartParserExecute (init d) (onePart d') =
      loop (onePart d') (2 * (onePart d').length + 2) 0 { init d with state := .startBoundary } := by
    rw [hcs]
    rfl
  rw [henter] at h
  exact start_mismatch hstart rfl rfl hr hd' hd hne h

/-! ## Two content types -/

section

variable {contentType contentType' : Bytes}

theorem Plain.boundary (h : Plain contentType) : Plain (multipartBoundary contentType) :=
  ⟨multipartBoundary_avoids h.1 (by decide), multipartBoundary_avoids h.2 (by decide)⟩

theorem boundary_ne_nil (h : Plain contentType) (hm : (find (text "multipart") contentType).isSome) :
    multipartBoundary contentType ≠ [] := by
  have hne := multipartBoundary_ne_nil h.2 hm
  rwa [cStr_eq_self h.boundary.2] at hne

theorem parseFiles_own (h : Plain contentType) (hm : (find (text "multipart") contentType).isSome) :
    parseFiles contentType (onePart (multipartBoundary contentType)) = some [[]] := by
  have hpart : ∀ part ∈ [(⟨[], []⟩ : Part)], ¬ crlf ++ multipartBoundary contentType <:+: part.data := by simp [crlf]
  obtain ⟨q, hq, hfiles⟩ := execute_parts (boundary_ne_nil h hm) h.boundary.1 h.boundary.2 (by simp) hpart
  rw [parseFiles, if_pos hm, onePart, hq]
  simp [hfiles]

theorem parseFiles_other (h : Plain contentType) (h' : Plain contentType')
    (hm : (find (text "multipart") contentType).isSome)
    (hne : multipartBoundary contentType' ≠ multipartBoundary contentType) :
    parseFiles contentType (onePart (multipartBoundary contentType')) = some [] := by
  obtain ⟨n, q, hq⟩ := execute_returns (onePart (multipartBoundary contentType')) (multipartBoundary_ne_nil h.2 hm)
  rw [parseFiles, if_pos hm, hq]
  exact congrArg some (execute_onePart_other h'.boundary.1 h.boundary.1 h.boundary.2 hne hq)

/-- On every body the same files. -/
def SameFiles (contentType contentType' : Bytes) : Prop :=
  ∀ body, parseFiles contentType body = parseFiles contentType' body

theorem SameFiles.multipart (h : Plain contentType) (hfiles : SameFiles contentType contentType')
    (hm : (find (text "multipart") contentType).isSome) : (find (text "multipart") contentType').isSome := by
  by_contra hno
  have hown := parseFiles_own h hm
  rw [hfiles, parseFiles, if_neg hno] at hown
  cases hown

theorem SameFiles.boundary (h : Plain contentType) (h' : Plain contentType')
    (hfiles : SameFiles contentType contentType') (hm : (find (text "multipart") contentType).isSome) :
    multipartBoundary contentType = multipartBoundary contentType' := by
  by_contra hne
  have hown := parseFiles_own h hm
  rw [hfiles, parseFiles_other h' h (hfiles.multipart h hm) hne] at hown
  cases hown

theorem sameFiles_iff {b : Bytes} (h : Declares contentType b) (h' : Declares contentType' b) :
    SameFiles contentType contentType' ↔ SameText contentType contentType' := by
  constructor
  · intro hfiles
    refine ⟨?_, fun hm => ?_⟩
    · rw [Bool.eq_iff_iff]
      exact ⟨hfiles.multipart h.plain, SameFiles.multipart h'.plain fun body => (hfiles body).symm⟩
    · have hb := hfiles.boundary h.plain h'.plain hm
      rw [multipartBoundary_eq, multipartBoundary_eq] at hb
      cases ht : boundaryText contentType with
      | some s =>
        cases ht' : boundaryText contentType' with
        | some s' =>
          simp only [ht, ht'] at hb
          exact ⟨by rw [List.append_cancel_left hb], by simp⟩
        | none =>
          simp only [ht, ht'] at hb
          exact absurd hb.symm h'.ne_hyphens
      | none =>
        cases ht' : boundaryText contentType' with
        | some s' =>
          simp only [ht, ht'] at hb
          exact absurd hb h.ne_hyphens
        | none =>
          simp only [ht, ht'] at hb
          exact ⟨rfl, fun _ => hb⟩
  · exact parseFiles_same

end

/-- A request with this content type and this body. -/
def uploadOf (contentType : Bytes) (h : 0 ∉ contentType) (body : Bytes) : Request where
  method := .post
  methodString := text "POST"
  target := text "/file"
  fields := [(text "Content-Type", contentType)]
  body := body
  method_ascii := post_ascii
  value_no_NUL := by simpa using h

theorem uploadOf_find {contentType : Bytes} (h : 0 ∉ contentType) (body : Bytes) :
    (uploadOf contentType h body).find (text "content-type") = some contentType := by
  have hname : iequals (text "Content-Type") (text "content-type") = true := by decide
  simp [Request.find, uploadOf, hname]

theorem httpRequest_files {req : Request} {r : HttpRequest} {contentType : Bytes}
    (hfind : req.find (text "content-type") = some contentType) (h : httpRequest req = some r) :
    parseFiles contentType req.body = some r.files := by
  rw [httpRequest, hfind, Option.getD_some, Option.map_eq_some_iff] at h
  obtain ⟨files, hfiles, rfl⟩ := h
  exact hfiles

theorem httpRequest_uploadOf {contentType : Bytes} (h : 0 ∉ contentType) (body : Bytes) :
    ∃ r, httpRequest (uploadOf contentType h body) = some r ∧ parseFiles contentType body = some r.files := by
  obtain ⟨r, hr⟩ := Option.isSome_iff_exists.mp (httpRequest_isSome (uploadOf contentType h body))
  exact ⟨r, hr, httpRequest_files (uploadOf_find h body) hr⟩

/-- **The declared boundary decides the files** exactly where the raw text
that stands for it is the same. -/
theorem declared_boundary_iff (contentType contentType' b : Bytes) (h : Declares contentType b)
    (h' : Declares contentType' b) :
    (∀ (req req' : Request) (r r' : HttpRequest), req.find (text "content-type") = some contentType →
      req'.find (text "content-type") = some contentType' → req.body = req'.body →
      httpRequest req = some r → httpRequest req' = some r' → r.files = r'.files) ↔
      SameText contentType contentType' := by
  rw [← sameFiles_iff h h']
  constructor
  · intro hall body
    obtain ⟨r, hr, hfiles⟩ := httpRequest_uploadOf h.plain.2 body
    obtain ⟨r', hr', hfiles'⟩ := httpRequest_uploadOf h'.plain.2 body
    rw [hfiles, hfiles', hall _ _ r r' (uploadOf_find h.plain.2 body) (uploadOf_find h'.plain.2 body) rfl hr hr']
  · intro hsame req req' r r' hfind hfind' hbody hr hr'
    have hfiles := httpRequest_files hfind hr
    rw [hsame, hbody, httpRequest_files hfind' hr'] at hfiles
    exact (Option.some.inj hfiles).symm

/-- `multipart/form-data; boundary=XY`. -/
def bareType : Bytes := text "multipart/form-data; boundary=XY"

/-- `multipart/mixed;charset=a;boundary=XY`. -/
def charsetType : Bytes := text "multipart/mixed;charset=a;boundary=XY"

/-- `multipart/form-data; boundary="XY"`. -/
def quotedType : Bytes := text "multipart/form-data; boundary=\"XY\""

theorem boundary_XY : IsBoundary (text "XY") := by
  unfold IsBoundary
  decide +kernel

theorem isToken_names : IsToken (text "form-data") ∧ IsToken (text "mixed") ∧ IsToken (text "boundary") ∧
    IsToken (text "charset") ∧ IsToken (text "a") ∧ IsToken (text "XY") := by
  unfold IsToken
  decide +kernel

theorem params_XY {w : Bytes} (h : ValueText w (text "XY")) :
    ParamsText (59 :: [32] ++ text "boundary" ++ 61 :: w ++ []) [(text "boundary", text "XY")] := by
  obtain ⟨-, -, hboundary, -⟩ := isToken_names
  exact .cons (by simp) hboundary h .nil

theorem bareType_declares : Declares bareType (text "XY") := by
  obtain ⟨hsubtype, -, -, -, -, hvalue⟩ := isToken_names
  exact ⟨text "multipart", text "form-data", _, _, by decide, hsubtype, params_XY (.token hvalue),
    by decide, by decide, boundary_XY⟩

theorem charsetType_declares : Declares charsetType (text "XY") := by
  obtain ⟨-, hsubtype, hboundary, hcharset, ha, hvalue⟩ := isToken_names
  have hparams : ParamsText (59 :: [] ++ text "charset" ++ 61 :: text "a" ++
      (59 :: [] ++ text "boundary" ++ 61 :: text "XY" ++ []))
      [(text "charset", text "a"), (text "boundary", text "XY")] :=
    .cons (by simp) hcharset (.token ha) (.cons (by simp) hboundary (.token hvalue) .nil)
  exact ⟨text "multipart", text "mixed", _, _, by decide, hsubtype, hparams, by decide,
    by decide, boundary_XY⟩

theorem quotedType_declares : Declares quotedType (text "XY") := by
  have hXY : text "XY" = [88, 89] := by decide
  have hvalue : ValueText (34 :: text "XY" ++ [34]) (text "XY") := by
    rw [hXY]
    exact .quoted (.byte (by decide) (by decide) (by decide) (.byte (by decide) (by decide) (by decide) .nil))
  exact ⟨text "multipart", text "form-data", _, _, by decide, isToken_names.1, params_XY hvalue,
    by decide, by decide, boundary_XY⟩

/-- A part with the content `a`, between two delimiters. -/
def onePartBody : Bytes := text "--XY\r\n\r\na\r\n--XY--"

/-- The same boundary at the end of two content types. -/
theorem charset_boundary_same :
    ∃ r r', httpRequest (uploadOf bareType bareType_declares.plain.2 onePartBody) = some r ∧
      httpRequest (uploadOf charsetType charsetType_declares.plain.2 onePartBody) = some r' ∧
      r.files = [text "a"] ∧ r'.files = [text "a"] := by
  have hsame : SameText bareType charsetType := by
    unfold SameText
    decide
  have hparse : parseFiles bareType onePartBody = some [text "a"] := by decide +kernel
  obtain ⟨r, hr, hfiles⟩ := httpRequest_uploadOf bareType_declares.plain.2 onePartBody
  obtain ⟨r', hr', -⟩ := httpRequest_uploadOf charsetType_declares.plain.2 onePartBody
  have heq := (declared_boundary_iff bareType charsetType (text "XY") bareType_declares charsetType_declares).mpr hsame
    _ _ r r' (uploadOf_find _ onePartBody) (uploadOf_find _ onePartBody) rfl hr hr'
  have hr_files : r.files = [text "a"] := Option.some.inj (hfiles.symm.trans hparse)
  exact ⟨r, r', hr, hr', hr_files, heq ▸ hr_files⟩

/-- The same boundary, bare and in double quotes. -/
theorem quoted_boundary_differs :
    ¬ ∀ (contentType contentType' b : Bytes), Declares contentType b → Declares contentType' b →
      ∀ (req req' : Request) (r r' : HttpRequest), req.find (text "content-type") = some contentType →
        req'.find (text "content-type") = some contentType' → req.body = req'.body →
        httpRequest req = some r → httpRequest req' = some r' → r.files = r'.files := by
  intro h
  have hsame : SameFiles bareType quotedType := by
    intro body
    obtain ⟨r, hr, hfiles⟩ := httpRequest_uploadOf bareType_declares.plain.2 body
    obtain ⟨r', hr', hfiles'⟩ := httpRequest_uploadOf quotedType_declares.plain.2 body
    rw [hfiles, hfiles', h _ _ _ bareType_declares quotedType_declares _ _ r r'
      (uploadOf_find bareType_declares.plain.2 body) (uploadOf_find quotedType_declares.plain.2 body) rfl hr hr']
  have hm : (find (text "multipart") bareType).isSome := by decide
  have hb := hsame.boundary bareType_declares.plain quotedType_declares.plain hm
  revert hb
  decide

end AudioToolApi
