/-
The upload round trip: the files of an `http_request` are the parts its body
was made of.
-/
import AudioToolApi.Http.MultipartFacts
import AudioToolApi.Http.Request

namespace AudioToolApi

open Multipart

/-! ## The constructor returns -/

theorem cStr_cons {c : UInt8} {s : Bytes} (hc : c ≠ 0) : cStr (c :: s) ≠ [] := by
  rw [cStr, List.takeWhile_cons, if_pos (decide_eq_true hc)]
  exact List.cons_ne_nil _ _

theorem find_ne_nil {pat s : Bytes} (hp : pat ≠ []) (h : (find pat s).isSome) : s ≠ [] := by
  rintro rfl
  rw [find, if_neg (by rwa [List.isEmpty_iff])] at h
  cases h

theorem multipartBoundary_ne_nil {contentType : Bytes} (h0 : 0 ∉ contentType)
    (hm : (find (text "multipart") contentType).isSome) : cStr (multipartBoundary contentType) ≠ [] := by
  unfold multipartBoundary
  split
  · exact cStr_cons (by decide)
  · obtain ⟨c, s, rfl⟩ := List.exists_cons_of_ne_nil (find_ne_nil (by decide) hm)
    exact cStr_cons fun e => h0 (e ▸ .head _)

theorem Request.find_no_NUL {req : Request} {name value : Bytes} (h : req.find name = some value) : 0 ∉ value := by
  obtain ⟨f, hf, rfl⟩ := Option.map_eq_some_iff.mp h
  exact req.value_no_NUL f (List.mem_of_find?_eq_some hf)

/-- **Every request is taken in**, whatever its body. -/
theorem httpRequest_isSome (req : Request) : (httpRequest req).isSome := by
  have h0 : 0 ∉ (req.find (text "content-type")).getD (text "application/json") := by
    cases h : req.find (text "content-type") with
    | none => rw [Option.getD_none]; decide
    | some value => exact req.find_no_NUL h
  rw [httpRequest, Option.isSome_map, parseFiles]
  split
  · rename_i hm
    obtain ⟨n, p, hp⟩ := execute_returns req.body (multipartBoundary_ne_nil h0 hm)
    rw [hp]
    rfl
  · rfl

/-! ## Uploads -/

/-- The content type of an upload. -/
def multipartFormData (b : Bytes) : Bytes := text "multipart/form-data; boundary=" ++ b

/-- The body of an upload: a delimiter line, each part followed by CR LF and
the delimiter, with CR LF between the parts, and two hyphens at the end. -/
def multipartBody (b : Bytes) : List Part → Bytes
  | [] => text "--" ++ b ++ text "--"
  | part :: parts => text "--" ++ b ++ crlf ++ part.encode ++ crlf ++ multipartBody b parts

theorem multipartBody_eq (b : Bytes) : ∀ parts,
    multipartBody b parts = (text "--" ++ b) ++ encodeParts (text "--" ++ b) parts
  | [] => rfl
  | part :: parts => by
    rw [multipartBody, multipartBody_eq b parts, encodeParts]
    simp only [List.append_assoc]

theorem formData_bytes : text "multipart/form-data; boundary=" =
    [109, 117, 108, 116, 105, 112, 97, 114, 116, 47, 102, 111, 114, 109, 45, 100, 97, 116, 97, 59, 32,
      98, 111, 117, 110, 100, 97, 114, 121, 61] := by decide

theorem find_multipart (b : Bytes) : find (text "multipart") (multipartFormData b) = some 0 := by
  have hm : text "multipart" = [109, 117, 108, 116, 105, 112, 97, 114, 116] := by decide
  rw [multipartFormData, formData_bytes, hm]
  rfl

theorem find_boundary (b : Bytes) : find (text "boundary=") (multipartFormData b) = some 21 := by
  have hb : text "boundary=" = [98, 111, 117, 110, 100, 97, 114, 121, 61] := by decide
  rw [multipartFormData, formData_bytes, hb]
  rfl

theorem multipartBoundary_formData (b : Bytes) : multipartBoundary (multipartFormData b) = text "--" ++ b := by
  rw [multipartBoundary, find_boundary, multipartFormData, formData_bytes]
  rfl

theorem mem_hyphens {c : UInt8} : c ∈ text "--" ↔ c = 45 := by
  have h : text "--" = [45, 45] := by decide
  simp [h]

theorem multipartBoundary_avoids {contentType : Bytes} {c : UInt8} (hc : c ∉ contentType) (hne : c ≠ 45) :
    c ∉ multipartBoundary contentType := by
  unfold multipartBoundary
  split
  · simp only [List.mem_append, mem_hyphens, not_or]
    exact ⟨hne, fun h => hc (List.mem_of_mem_drop h)⟩
  · exact hc

/-- **The upload round trip.** Whatever the parts' data, partial copies of
the delimiter included, as long as the delimiter itself does not occur in
them. -/
theorem upload_files (req : Request) (b : Bytes) (hCR : CR ∉ b) (hNUL : 0 ∉ b) (parts : List Part)
    (hne : parts ≠ []) (hparts : ∀ part ∈ parts, ¬ crlf ++ (text "--" ++ b) <:+: part.data)
    (htype : req.find (text "content-type") = some (multipartFormData b))
    (hbody : req.body = multipartBody b parts) :
    ∃ r, httpRequest req = some r ∧ r.files = parts.map Part.data := by
  have avoids {c : UInt8} (hc : c ≠ 45) (hb : c ∉ b) : c ∉ text "--" ++ b := by
    simp only [List.mem_append, mem_hyphens, not_or]
    exact ⟨hc, hb⟩
  have hd : text "--" ++ b ≠ [] := by
    have h : text "--" = [45, 45] := by decide
    simp [h]
  obtain ⟨q, hq, hfiles⟩ :=
    execute_parts hd (avoids (by decide) hCR) (avoids (by decide) hNUL) hne hparts
  have hparse : parseFiles (multipartFormData b) req.body = some q.files := by
    rw [parseFiles, find_multipart, hbody, multipartBody_eq, multipartBoundary_formData, hq]
    rfl
  simp only [httpRequest, htype, Option.getD_some, hparse, Option.map_some, Option.some.injEq, exists_eq_left',
    hfiles]

/-- Two parts with near copies of the delimiter in their data. -/
def uploadParts : List Part :=
  [⟨[⟨text "a", text "b", by decide, by decide +kernel, by decide⟩], [CR] ++ crlf ++ text "--X" ++ [CR]⟩, ⟨[], []⟩]

def uploadRequest : Request where
  method := .post
  methodString := text "POST"
  target := text "/file?name=n"
  fields := [(text "Content-Type", multipartFormData (text "XY"))]
  body := multipartBody (text "XY") uploadParts
  method_ascii := by decide +kernel
  value_no_NUL := by decide

theorem upload_files_two_parts :
    ∃ r, httpRequest uploadRequest = some r ∧ r.files = [[CR] ++ crlf ++ text "--X" ++ [CR], []] :=
  upload_files uploadRequest (text "XY") (by decide) (by decide) uploadParts (by decide) (by decide) (by decide) rfl

end AudioToolApi
