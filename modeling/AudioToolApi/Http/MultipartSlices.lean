/-
Bodies that are not well formed, too: the files are slices of the body, one
after the other, each right after CR LF and up to the first delimiter from
there. What the parser has read but not ended is in no file.
-/
import AudioToolApi.Http.MultipartFacts
import AudioToolApi.Http.RequestFacts

namespace AudioToolApi

namespace Multipart

open Delimiter

/-! ## Slices -/

/-- `data` stands at `s`, after CR LF and up to the first `D` from there. -/
structure PartAt (buf D : Bytes) (s : Nat) (data : Bytes) : Prop where
  blank : slice buf (s - 2) 2 = crlf
  stands : data ++ D <+: buf.drop s
  first : NoneBefore D (buf.drop s) data.length

/-- Parts one after the other, with all of them before `n`. -/
inductive PartsBefore (buf D : Bytes) : Nat → List Bytes → Prop
  | nil {n} : PartsBefore buf D n []
  | snoc {m s n files data} : PartsBefore buf D m files → m + 2 ≤ s → PartAt buf D s data →
      s + data.length + D.length ≤ n → PartsBefore buf D n (files ++ [data])

variable {buf d D : Bytes} {files : List Bytes} {i m n : Nat} {c : UInt8} {p : Parser}

theorem PartsBefore.mono (h : PartsBefore buf D m files) (hn : m ≤ n) : PartsBefore buf D n files := by
  cases h with
  | nil => exact .nil
  | snoc h hs hpart hend => exact .snoc h hs hpart (by omega)

/-- No part reaches over the end. -/
theorem PartsBefore.inside (h : PartsBefore buf D n files) (hD : D ≠ []) : PartsBefore buf D buf.length files := by
  cases h with
  | nil => exact .nil
  | snoc h hs hpart hend =>
    refine .snoc h hs hpart ?_
    have hlen := hpart.stands.length_le
    have hpos := List.length_pos_iff.mpr hD
    simp only [List.length_append, List.length_drop] at hlen
    omega

/-! ## The invariant -/

/-- The data of a part may start at `s`. -/
def Opens (buf D : Bytes) (files : List Bytes) (s : Nat) : Prop :=
  ∃ m, PartsBefore buf D m files ∧ m + 2 ≤ s ∧ slice buf (s - 2) 2 = crlf

/-- Neither in the data of a part nor at the end of a part's headers. -/
def State.outside : State → Bool
  | .headersAlmostDone | .partDataStart | .partData | .partDataAlmostBoundary | .partDataBoundary => false
  | _ => true

/-- Between parts: nothing is accumulated. -/
structure Between (buf d : Bytes) (n : Nat) (p : Parser) : Prop where
  holds : Holds d p
  current : p.currentFileData = []
  parts : PartsBefore buf (crlf ++ d) n p.files

/-- Where the parser is, in front of byte `i`. -/
inductive Reading (buf d : Bytes) (i : Nat) (p : Parser) : Prop
  | past : buf.length ≤ i → PartsBefore buf (crlf ++ d) i p.files → Reading buf d i p
  | outside : Between buf d i p → p.state.outside = true → Reading buf d i p
  | blank {j} : i = j + 1 → Between buf d j p → p.state = .headersAlmostDone → buf[j]? = some CR → Reading buf d i p
  | dataStart : Holds d p → p.currentFileData = [] → p.state = .partDataStart → Opens buf (crlf ++ d) p.files i →
      Reading buf d i p
  | inData {s k out} : Holds d p → InData buf d i out k p → k < (crlf ++ d).length → i = s + out.length + k →
      Opens buf (crlf ++ d) p.files s → buf.drop s = out ++ (crlf ++ d).take k ++ buf.drop i →
      NoneBefore (crlf ++ d) (buf.drop s) out.length → Reading buf d i p

def Turn.Reads (buf d : Bytes) : Turn → Prop
  | .next i p => Reading buf d i p
  | .ret _ p => ∃ n, PartsBefore buf (crlf ++ d) n p.files
  | .fault => True

theorem Reading.parts (h : Reading buf d i p) : ∃ n, PartsBefore buf (crlf ++ d) n p.files := by
  cases h with
  | past _ h => exact ⟨_, h⟩
  | outside h _ => exact ⟨_, h.parts⟩
  | blank _ h _ _ => exact ⟨_, h.parts⟩
  | dataStart _ _ _ h =>
    obtain ⟨m, h, -⟩ := h
    exact ⟨m, h⟩
  | inData _ _ _ _ h _ _ =>
    obtain ⟨m, h, -⟩ := h
    exact ⟨m, h⟩

/-! ## Between parts -/

theorem reads_ite {P : Prop} [Decidable P] {t e : Turn} (ht : P → t.Reads buf d) (he : e.Reads buf d) :
    (if P then t else e).Reads buf d := by
  split
  · rename_i hP
    exact ht hP
  · exact he

namespace Between

theorem set (h : Between buf d n p) (k m : Nat) (s : State) :
    Between buf d n { p with index := k, mark := m, state := s } :=
  ⟨⟨h.holds.boundary, h.holds.boundaryLength, h.holds.lookbehind⟩, h.current, h.parts⟩

theorem ret (h : Between buf d n p) {j : Nat} : (Turn.ret j p).Reads buf d := ⟨n, h.parts⟩

/-- On to the next byte, with no data. -/
theorem next (h : Between buf d i p) (hs : p.state.outside = true) : (Turn.next (i + 1) p).Reads buf d :=
  .outside ⟨h.holds, h.current, h.parts.mono (Nat.le_succ i)⟩ hs

theorem startBoundary (h : Between buf d i p) (hs : p.state.outside = true) :
    (startBoundary i c p).Reads buf d := by
  have next (k : Nat) : (Turn.next (i + 1) { p with index := k }).Reads buf d := (h.set k p.mark p.state).next hs
  refine reads_ite (fun _ => reads_ite (fun _ => h.ret) (next _)) ?_
  refine reads_ite (fun _ => reads_ite (fun _ => h.ret) ((h.set 0 p.mark .headerFieldStart).next rfl)) ?_
  unfold Parser.withBoundary
  split
  · exact reads_ite (fun _ => h.ret) (next _)
  · trivial

theorem headerField (h : Between buf d i p) (hc : buf[i]? = some c) (hs : p.state.outside = true) :
    (headerField i c p).Reads buf d := by
  have value : (Turn.next (i + 1) { p with state := .headerValueStart }).Reads buf d :=
    (h.set p.index p.mark .headerValueStart).next rfl
  refine reads_ite (fun e => ?_) (reads_ite (fun _ => value) (reads_ite (fun _ => value)
    (reads_ite (fun _ => h.ret) (h.next hs))))
  subst e
  exact .blank rfl (h.set p.index p.mark .headersAlmostDone) rfl hc

theorem headerValue (h : Between buf d i p) (hs : p.state.outside = true) : (headerValue i c p).Reads buf d :=
  reads_ite (fun _ => (h.set p.index p.mark .headerValueAlmostDone).next rfl) (h.next hs)

end Between

/-- The empty line after the headers opens the data. -/
theorem opens_blank {j : Nat} (h : PartsBefore buf D j files) (hj : buf[j]? = some CR) (hc : buf[j + 1]? = some LF) :
    Opens buf D files (j + 2) := by
  refine ⟨j, h, Nat.le_refl _, ?_⟩
  rw [Nat.add_sub_cancel, slice, List.take_add_one, List.take_one, List.head?_drop, List.getElem?_drop, hj, hc]
  rfl

/-! ## In the data -/

theorem drop_cons (hc : buf[i]? = some c) : buf.drop i = c :: buf.drop (i + 1) := by
  obtain ⟨hi, rfl⟩ := List.getElem?_eq_some_iff.mp hc
  exact List.drop_eq_getElem_cons hi

theorem turn_last (hs : p.state = .partData) (hlast : buf.length ≤ i + 1) (hc : c ≠ CR) (hi : i < buf.length) :
    turn buf i c p = .next (i + 1) (p.emit (slice buf p.mark (i - p.mark + 1))) := by
  simp only [turn, hs, partData, if_neg hc, if_pos (show i = buf.length - 1 by omega)]

theorem inData_reads (hd : d ≠ []) (hCR : CR ∉ d) {s k : Nat} {out : Bytes} (hc : buf[i]? = some c)
    (hp : Holds d p) (h : InData buf d i out k p) (hk : k < (crlf ++ d).length) (hi : i = s + out.length + k)
    (hopens : Opens buf (crlf ++ d) p.files s) (hread : buf.drop s = out ++ (crlf ++ d).take k ++ buf.drop i)
    (hfirst : NoneBefore (crlf ++ d) (buf.drop s) out.length) : (turn buf i c p).Reads buf d := by
  have hsimple := simple_delimiter hCR
  have hne : crlf ++ d ≠ [] := by simp [crlf]
  have hlt := (List.getElem?_eq_some_iff.mp hc).1
  rw [drop_cons hc] at hread
  by_cases hmatch : (crlf ++ d)[k]? = some c
  · have hread' : buf.drop s = out ++ (crlf ++ d).take (k + 1) ++ buf.drop (i + 1) := by
      rw [hread, List.append_assoc, take_append_cons hmatch, List.append_assoc]
    by_cases hlast : k + 1 = (crlf ++ d).length
    · obtain ⟨p', ht, hp', hs', hf, hcur⟩ := turn_completed hp h hd hmatch hlast
      obtain ⟨m, hparts, hm, hblank⟩ := hopens
      rw [hlast, List.take_length] at hread'
      have hpart : PartAt buf (crlf ++ d) s out := ⟨hblank, ⟨_, hread'.symm⟩, hfirst⟩
      rw [ht]
      refine .outside ⟨hp', hcur, ?_⟩ (by rw [hs']; rfl)
      rw [hf]
      exact .snoc hparts hm hpart (by omega)
    · obtain ⟨p', ht, hp', h', hf⟩ := turn_matched (i := i) hp h hmatch (by omega)
      rw [ht]
      exact .inData hp' h' (by omega) (by omega) (hf ▸ hopens) hread' hfirst
  · cases k with
    | zero =>
      have hCR' : c ≠ CR := fun e => hmatch (e ▸ rfl)
      by_cases hlast : i + 1 < buf.length
      · obtain ⟨ht, h'⟩ := turn_kept h hc hlast hmatch
        rw [ht]
        simp only [List.take_zero, List.append_nil] at hread
        refine .inData hp h' hk (by simp; omega) hopens (by simp [hread]) ?_
        have hnext : NoneBefore (crlf ++ d) (c :: buf.drop (i + 1)) (0 + 1) :=
          .cons hne hmatch fun _ h => absurd h (Nat.not_lt_zero _)
        rw [hread] at hfirst ⊢
        rw [List.length_append]
        exact hfirst.append hnext
      · rw [turn_last h.1 (by omega) hCR' hlt]
        obtain ⟨m, hparts, hm, -⟩ := hopens
        exact .past (by omega) (hparts.mono (by omega))
    | succ k =>
      obtain ⟨p', ht, hp', h', hf⟩ := turn_failed hp h hmatch
      have hlen : ((crlf ++ d).take (k + 1)).length = k + 1 := List.length_take_of_le (Nat.le_of_lt hk)
      rw [ht]
      refine .inData hp' h' (by omega) (by simp only [List.length_append, hlen]; omega) (hf ▸ hopens)
        (by simp [hread, drop_cons hc]) ?_
      have hnext : NoneBefore (crlf ++ d) ((crlf ++ d).take (k + 1) ++ c :: buf.drop (i + 1)) (k + 1) :=
        hsimple.noneBefore_take hk hmatch
      rw [hread, List.append_assoc] at hfirst ⊢
      rw [List.length_append, hlen]
      exact hfirst.append hnext

/-! ## Every turn -/

theorem turn_reads (hd : d ≠ []) (hCR : CR ∉ d) (hc : buf[i]? = some c) (h : Reading buf d i p) :
    (turn buf i c p).Reads buf d := by
  have hlt := (List.getElem?_eq_some_iff.mp hc).1
  cases h with
  | past hpast _ => omega
  | blank hi h hs hj =>
    subst hi
    simp only [turn, hs]
    split
    · exact h.ret
    · rename_i hLF
      obtain rfl : c = LF := not_not.mp hLF
      exact .dataStart ⟨h.holds.boundary, h.holds.boundaryLength, h.holds.lookbehind⟩ h.current rfl
        (opens_blank h.parts hj hc)
  | dataStart hp hcur hs hopens =>
    have hp' : Holds d { p with mark := i, state := .partData } := ⟨hp.boundary, hp.boundaryLength, hp.lookbehind⟩
    have hin : InData buf d i [] 0 { p with mark := i, state := .partData } := by
      refine ⟨rfl, Nat.le_refl i, ?_⟩
      simp [slice, hcur]
    have hturn : turn buf i c p = turn buf i c { p with mark := i, state := .partData } := by simp only [turn, hs]
    rw [hturn]
    exact inData_reads hd hCR hc hp' hin (by simp [crlf]) rfl hopens (by simp) fun _ h => absurd h (Nat.not_lt_zero _)
  | inData hp h hk hi hopens hread hfirst => exact inData_reads hd hCR hc hp h hk hi hopens hread hfirst
  | outside h hout =>
    unfold turn
    cases hs : p.state with
    | start => exact (h.set 0 p.mark .startBoundary).startBoundary rfl
    | startBoundary => exact h.startBoundary hout
    | headerFieldStart => exact (h.set p.index i .headerField).headerField hc rfl
    | headerField => exact h.headerField hc hout
    | headerValueStart => exact reads_ite (fun _ => h.next hout) ((h.set p.index i .headerValue).headerValue rfl)
    | headerValue => exact h.headerValue hout
    | headerValueAlmostDone =>
      exact reads_ite (fun _ => h.ret) ((h.set p.index p.mark .headerFieldStart).next rfl)
    | partDataAlmostEnd =>
      exact reads_ite (fun _ => (h.set p.index p.mark .partDataFinalHyphen).next rfl)
        (reads_ite (fun _ => (h.set p.index p.mark .partDataEnd).next rfl) h.ret)
    | partDataEnd => exact reads_ite (fun _ => (h.set p.index p.mark .headerFieldStart).next rfl) h.ret
    | partDataFinalHyphen => exact reads_ite (fun _ => (h.set p.index p.mark .«end»).next rfl) h.ret
    | «end» => exact h.next hout
    | headersAlmostDone => rw [hs] at hout; cases hout
    | partDataStart => rw [hs] at hout; cases hout
    | partData => rw [hs] at hout; cases hout
    | partDataAlmostBoundary => rw [hs] at hout; cases hout
    | partDataBoundary => rw [hs] at hout; cases hout

theorem loop_reads (hd : d ≠ []) (hCR : CR ∉ d) {fuel : Nat} {q : Parser} (h : Reading buf d i p)
    (hloop : loop buf fuel i p = some (.returned n q)) : ∃ m, PartsBefore buf (crlf ++ d) m q.files := by
  induction fuel generalizing i p with
  | zero => cases hloop
  | succ fuel ih =>
    unfold loop at hloop
    cases hc : buf[i]? with
    | none =>
      rw [hc] at hloop
      cases hloop
      exact h.parts
    | some c =>
      have hturn := turn_reads hd hCR hc h
      simp only [hc] at hloop
      cases ht : turn buf i c p with
      | next i' p' =>
        rw [ht] at hturn hloop
        exact ih hturn hloop
      | ret n' p' =>
        rw [ht] at hturn hloop
        cases hloop
        exact hturn
      | fault =>
        rw [ht] at hloop
        cases hloop

theorem execute_slices (hd : d ≠ []) (hCR : CR ∉ d) (h0 : 0 ∉ d) {q : Parser}
    (h : multipartParserExecute (init d) buf = some (.returned n q)) :
    PartsBefore buf (crlf ++ d) buf.length q.files := by
  have hinit : Reading buf d 0 (init d) := .outside ⟨init_holds h0, rfl, .nil⟩ rfl
  obtain ⟨m, hparts⟩ := loop_reads hd hCR hinit h
  exact hparts.inside (by simp [crlf])

end Multipart

/-! ## The request -/

open Multipart

/-- **Whatever the body**: it is parsed to the end or given up, without an
access outside the allocations, and the files are slices of it. -/
theorem multipart_slices (req : Request) (contentType : Bytes)
    (htype : req.find (text "content-type") = some contentType)
    (hmultipart : (find (text "multipart") contentType).isSome) (hCR : CR ∉ contentType) :
    ∃ n p r, multipartParserExecute (Multipart.init (multipartBoundary contentType)) req.body = some (.returned n p) ∧
      httpRequest req = some r ∧ r.files = p.files ∧
      PartsBefore req.body (crlf ++ multipartBoundary contentType) req.body.length r.files := by
  have h0 : 0 ∉ contentType := req.find_no_NUL htype
  have hd0 := multipartBoundary_avoids h0 (by decide)
  have hne := multipartBoundary_ne_nil h0 hmultipart
  obtain ⟨n, p, hp⟩ := execute_returns req.body hne
  rw [cStr_eq_self hd0] at hne
  have hparse : parseFiles contentType req.body = some p.files := by
    rw [parseFiles, if_pos hmultipart, hp]
  refine ⟨n, p, _, hp, by rw [httpRequest, htype, Option.getD_some, hparse]; rfl, rfl, ?_⟩
  exact execute_slices hne (multipartBoundary_avoids hCR (by decide)) hd0 hp

theorem formData_no_NUL : ∀ f ∈ [(text "Content-Type", multipartFormData (text "XY"))], 0 ∉ f.2 := by
  decide

/-- A part with a partial delimiter in it, and a byte that does not belong
after the delimiter that ends it. -/
def brokenUpload : Request where
  method := .post
  methodString := text "POST"
  target := text "/file?name=n"
  fields := [(text "Content-Type", multipartFormData (text "XY"))]
  body := text "--XY\r\n\r\na\r\n--X\r\n--XYz\r\n\r\nb\r\n--X"
  method_ascii := post_ascii
  value_no_NUL := formData_no_NUL

theorem multipart_slices_broken :
    ∃ n p r, multipartParserExecute (Multipart.init (multipartBoundary (multipartFormData (text "XY"))))
        brokenUpload.body = some (.returned n p) ∧ httpRequest brokenUpload = some r ∧ r.files = p.files ∧
      PartsBefore brokenUpload.body (crlf ++ multipartBoundary (multipartFormData (text "XY")))
        brokenUpload.body.length r.files :=
  multipart_slices brokenUpload (multipartFormData (text "XY")) (by decide) (by decide)
    (by decide)

end AudioToolApi
