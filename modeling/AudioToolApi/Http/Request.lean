/-
`http_request` (http/http_request.cpp): the path and the parameters of the
target, the content type and the files of a multipart body. `headers`, which
nothing reads, is left out.
-/
import AudioToolApi.Http.Multipart

namespace AudioToolApi

/-- `http::verb`, as far as `process` tells verbs apart. -/
inductive Verb
  | head | options | get | post | put | delete_ | other
  deriving DecidableEq, Repr

/-- `http::request<http::string_body>`, as Beast parses it: a method is a
token, and a field value has no control characters. -/
structure Request where
  method : Verb
  methodString : Bytes
  target : Bytes
  fields : List (Bytes × Bytes)
  body : Bytes
  method_ascii : ∀ c ∈ methodString, c < 128
  value_no_NUL : ∀ f ∈ fields, 0 ∉ f.2

theorem get_ascii : ∀ c ∈ text "GET", c < 128 := by
  have h : text "GET" = [71, 69, 84] := by decide
  simp [h]

theorem post_ascii : ∀ c ∈ text "POST", c < 128 := by
  have h : text "POST" = [80, 79, 83, 84] := by decide
  simp [h]

theorem no_fields : ∀ f ∈ ([] : List (Bytes × Bytes)), 0 ∉ f.2 := nofun

/-- `req.find(name)` and the value it points at. -/
def Request.find (req : Request) (name : Bytes) : Option Bytes :=
  (req.fields.find? fun f => iequals f.1 name).map Prod.snd

/-- `unordered_map<string, string>`. -/
abbrev Params := List (Bytes × Bytes)

/-- `ps[name] = value`. -/
def Params.assign (ps : Params) (name value : Bytes) : Params := (name, value) :: ps

/-- `ps.emplace(name, value)`: a name that is there keeps its value. -/
def Params.emplace (ps : Params) (name value : Bytes) : Params :=
  if (ps.lookup name).isSome then ps else (name, value) :: ps

/-! ## The target -/

structure UrlState where
  path : Bytes := []
  urlParams : Params := []
  currentParamName : Bytes := []
  currentParamValue : Bytes := []
  inParams : Bool := false
  inValue : Bool := false
  deriving DecidableEq, Repr

def UrlState.step (u : UrlState) (c : UInt8) : UrlState :=
  if c = 63 ∨ c = 35 then { u with path := u.currentParamName, currentParamName := [], inParams := true }
  else if c = 61 ∧ u.inParams ∧ !u.inValue then { u with inValue := true }
  else if c = 38 ∧ u.inParams then
    { u with
      urlParams := u.urlParams.assign u.currentParamName u.currentParamValue
      currentParamName := [], currentParamValue := [], inValue := false }
  else if u.inParams ∧ u.inValue then { u with currentParamValue := u.currentParamValue ++ [c] }
  else { u with currentParamName := u.currentParamName ++ [c] }

/-- The last piece. -/
def UrlState.finish (u : UrlState) : UrlState :=
  if u.currentParamName.length > 0 then
    if u.inParams then { u with urlParams := u.urlParams.emplace u.currentParamName u.currentParamValue }
    else { u with path := u.currentParamName }
  else u

def parseTarget (target : Bytes) : UrlState := (target.foldl UrlState.step {}).finish

/-! ## The request -/

structure HttpRequest where
  verb : Verb
  path : Bytes
  urlParams : Params
  contentType : Bytes
  files : List Bytes
  body : Bytes
  deriving DecidableEq, Repr

def HttpRequest.hasParam (r : HttpRequest) (name : Bytes) : Bool := (r.urlParams.lookup name).isSome

/-- The string that `multipart_parser_init` is given. -/
def multipartBoundary (contentType : Bytes) : Bytes :=
  match find (text "boundary=") contentType with
  | some index => text "--" ++ contentType.drop (index + 9)
  | none => contentType

/-- The files of a body; `none` is an access outside an allocation. -/
def parseFiles (contentType body : Bytes) : Option (List Bytes) :=
  if (find (text "multipart") contentType).isSome then
    match Multipart.multipartParserExecute (Multipart.init (multipartBoundary contentType)) body with
    | some (.returned _ p) => some p.files
    | _ => none
  else some []

/-- The constructor. -/
def httpRequest (req : Request) : Option HttpRequest :=
  let url := parseTarget req.target
  let contentType := (req.find (text "content-type")).getD (text "application/json")
  (parseFiles contentType req.body).map fun files =>
    { verb := req.method, path := url.path, urlParams := url.urlParams, contentType, files, body := req.body }

end AudioToolApi
