/-
The form that `get_token` posts to Google. Whatever the code, the client id
and the secret are, it is read back as its five fields, in their order.
-/
import AudioToolApi.Http.ParamPosition
import AudioToolApi.Utilities.RequestsFacts

namespace AudioToolApi

open Percent

/-- The fields of a form: at each `&`, then at the first `=`, and
percent-decoded. -/
def formFields (body : Bytes) : List (Bytes × Bytes) :=
  (queryPairs body).map fun pair => (decode pair.1, decode pair.2)

theorem formFields_append (s q : Bytes) : formFields (s ++ 38 :: q) = formFields s ++ formFields q := by
  rw [formFields, queryPairs_append, List.map_append]
  rfl

theorem formFields_field {name value : Bytes} (hname : 38 ∉ name ∧ 61 ∉ name) (hvalue : 38 ∉ value) :
    formFields (name ++ 61 :: value) = [(decode name, decode value)] := by
  have hfield : 38 ∉ name ++ 61 :: value := by simp [hname.1, hvalue]
  rw [formFields, queryPairs_piece hfield, splitPair_value hname.2]
  rfl

theorem urlEncode_no_ampersand (value : Bytes) : 38 ∉ urlEncode value :=
  (urlEncode_written value).not_mem (by decide) (by decide) (by decide)

/-- The names, and the two values that are written out. -/
theorem form_texts :
    text "code=" = text "code" ++ [61] ∧ text "&client_id=" = 38 :: (text "client_id" ++ [61]) ∧
      text "&client_secret=" = 38 :: (text "client_secret" ++ [61]) ∧
      text "&redirect_uri=https://audiotool.v3x.pw/api/auth" =
        38 :: (text "redirect_uri" ++ 61 :: text "https://audiotool.v3x.pw/api/auth") ∧
      text "&grant_type=authorization_code" = 38 :: (text "grant_type" ++ 61 :: text "authorization_code") := by
  decide

theorem form_names : ∀ name ∈
      [text "code", text "client_id", text "client_secret", text "redirect_uri", text "grant_type"],
    (38 ∉ name ∧ 61 ∉ name) ∧ decode name = name := by
  decide

theorem form_values : ∀ value ∈ [text "https://audiotool.v3x.pw/api/auth", text "authorization_code"],
    38 ∉ value ∧ decode value = value := by
  decide

theorem tokenForm_eq (env : Env) (code : Bytes) :
    tokenForm env code =
      (text "code" ++ 61 :: urlEncode (cStr (env.unescape code))) ++ 38 ::
      ((text "client_id" ++ 61 :: urlEncode env.googleAuthClientId) ++ 38 ::
      ((text "client_secret" ++ 61 :: urlEncode env.googleAuthSecret) ++ 38 ::
      ((text "redirect_uri" ++ 61 :: text "https://audiotool.v3x.pw/api/auth") ++ 38 ::
      (text "grant_type" ++ 61 :: text "authorization_code")))) := by
  obtain ⟨hcode, hid, hsecret, huri, hgrant⟩ := form_texts
  rw [tokenForm, hcode, hid, hsecret, huri, hgrant]
  simp only [List.append_assoc, List.cons_append, List.nil_append]

/-- **The form cannot be injected into.** -/
theorem tokenForm_fields {env : Env} {code : Bytes} (hunescape : env.unescape code = decode code) :
    formFields (tokenForm env code) = [
      (text "code", cStr (decode code)),
      (text "client_id", env.googleAuthClientId),
      (text "client_secret", env.googleAuthSecret),
      (text "redirect_uri", text "https://audiotool.v3x.pw/api/auth"),
      (text "grant_type", text "authorization_code")] := by
  have hnames := form_names
  have hvalues := form_values
  simp only [List.forall_mem_cons] at hnames hvalues
  obtain ⟨⟨hcode, hcode'⟩, ⟨hid, hid'⟩, ⟨hsecret, hsecret'⟩, ⟨huri, huri'⟩, ⟨hgrant, hgrant'⟩, -⟩ := hnames
  obtain ⟨⟨haddress, haddress'⟩, ⟨htype, htype'⟩, -⟩ := hvalues
  rw [tokenForm_eq, formFields_append, formFields_append, formFields_append, formFields_append,
    formFields_field hcode (urlEncode_no_ampersand _), formFields_field hid (urlEncode_no_ampersand _),
    formFields_field hsecret (urlEncode_no_ampersand _), formFields_field huri haddress, formFields_field hgrant htype,
    hcode', hid', hsecret', huri', hgrant', haddress', htype', decode_urlEncode, decode_urlEncode, decode_urlEncode,
    hunescape]
  rfl

/-- A code that tries: `a&client_id=b`, escaped, and more after a NUL. -/
theorem tokenForm_fields_injected :
    (formFields (tokenForm
      { plainEnv with unescape := decode, googleAuthClientId := text "id=&%", googleAuthSecret := [0, 255] }
      (text "a%26client_id%3Db%00c"))).map Prod.snd = [text "a&client_id=b", text "id=&%", [0, 255],
        text "https://audiotool.v3x.pw/api/auth", text "authorization_code"] := by
  rw [tokenForm_fields rfl]
  decide

end AudioToolApi
