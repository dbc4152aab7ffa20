/-
The token in the address that a login is sent on to. `auth_handler::get`
escapes the three characters of base64 that an address does not take as they
are; `login_token_survives` says that the client reads back the token that is
stored, and that it is the token of one draw only.
-/
import AudioToolApi.Http.AuthFacts
import AudioToolApi.Lib.Percent
import AudioToolApi.Utilities.Base64Facts

namespace AudioToolApi

open Effects Percent

/-! ## The escapes -/

/-- One character of the loop in `auth_handler::get`. -/
def escapeTokenByte (c : UInt8) : Bytes :=
  if c = 47 then text "%2F" else if c = 43 then text "%2B" else if c = 61 then text "%3D" else [c]

theorem escapeToken_eq (token : Bytes) : escapeToken token = token.flatMap escapeTokenByte := rfl

theorem isEncoded_cases {c : UInt8} (h : isEncoded c = true) : c = 47 ∨ c = 43 ∨ c = 61 ∨ isAlnum c = true := by
  have halphabet : ∀ d ∈ base64Chars, d = 47 ∨ d = 43 ∨ d = 61 ∨ isAlnum d = true := by decide +kernel
  simp only [isEncoded, Bool.or_eq_true, List.contains_iff_mem, decide_eq_true_eq] at h
  rcases h with h | h
  · exact halphabet c h
  · exact .inr (.inr (.inl h))

theorem escapes_read : escapeTokenByte 47 = [37, 50, 70] ∧ escaped 37 50 70 = some 47 ∧
    escapeTokenByte 43 = [37, 50, 66] ∧ escaped 37 50 66 = some 43 ∧
    escapeTokenByte 61 = [37, 51, 68] ∧ escaped 37 51 68 = some 61 := by
  decide

/-- What is left as it is. -/
theorem escapeTokenByte_alnum {c : UInt8} (h : isAlnum c = true) : escapeTokenByte c = [c] ∧ c ≠ 37 := by
  have hne {d : UInt8} (hd : isAlnum d = false) : c ≠ d := by
    intro e
    rw [e, hd] at h
    cases h
  rw [escapeTokenByte, if_neg (hne (by decide)), if_neg (hne (by decide)), if_neg (hne (by decide))]
  exact ⟨rfl, hne (by decide)⟩

theorem escapeTokenByte_reads {c : UInt8} (h : isEncoded c = true) : Reads escapeTokenByte c := by
  obtain ⟨hslash, hslash', hplus, hplus', heq, heq'⟩ := escapes_read
  rcases isEncoded_cases h with rfl | rfl | rfl | hc
  · exact reads_escaped hslash hslash'
  · exact reads_escaped hplus hplus'
  · exact reads_escaped heq heq'
  · obtain ⟨hself, hne⟩ := escapeTokenByte_alnum hc
    exact reads_self hself hne

theorem escapeTokenByte_written {c : UInt8} (h : isEncoded c = true) : Written isAlnum (escapeTokenByte c) := by
  obtain ⟨hslash, hslash', hplus, hplus', heq, heq'⟩ := escapes_read
  rcases isEncoded_cases h with rfl | rfl | rfl | hc
  · rw [hslash]
    exact .escape (by rw [hslash']; rfl) .nil
  · rw [hplus]
    exact .escape (by rw [hplus']; rfl) .nil
  · rw [heq]
    exact .escape (by rw [heq']; rfl) .nil
  · rw [(escapeTokenByte_alnum hc).1]
    exact .byte hc .nil

/-! ## The suffix -/

/-- What is appended for a draw. -/
def tokenSuffix (draw : Block) : Bytes := escapeToken (base64Encode draw)

theorem tokenSuffix_written (draw : Block) : Written isAlnum (tokenSuffix draw) := by
  rw [tokenSuffix, escapeToken_eq]
  exact .flatMap fun c hc => escapeTokenByte_written (base64Encode_isEncoded _ c hc)

theorem decode_tokenSuffix (draw : Block) : decode (tokenSuffix draw) = base64Encode draw := by
  rw [tokenSuffix, escapeToken_eq]
  exact decode_flatMap fun c hc => escapeTokenByte_reads (base64Encode_isEncoded _ c hc)

theorem tokenSuffix_inj {draw draw' : Block} (h : tokenSuffix draw = tokenSuffix draw') : draw = draw' := by
  have htoken : base64Encode draw = base64Encode draw' := by
    rw [← decode_tokenSuffix, h, decode_tokenSuffix]
  exact Subtype.ext (base64Encode_inj (by rw [draw.2, draw'.2]) htoken)

/-! ## The login -/

variable {env : Env} {r : HttpRequest} {h h' : Handling}

theorem oauthSession_token {email : Bytes} (hh : h.response.headers = baseHeaders)
    (hok : oauthSession env email h = .ok () h') :
    ∃ row, h'.world.db.sessions = h.world.db.sessions ++ [row] ∧
      row.token = base64Encode (env.random h.world.draws) ∧
      h'.response.headers.lookup (text "Location") = some (loginSuccess ++ tokenSuffix (env.random h.world.draws)) := by
  rw [oauthSession_apply] at hok
  rcases fillByEmail_apply h.user email h.world with ⟨e, he, -⟩ | ⟨-, row, -, hfill⟩
  · rw [he] at hok
    cases hok
  · rw [hfill] at hok
    simp only at hok
    cases hcreate : Session.create env row.id h.world.next with
    | error e w => simp [hcreate] at hok
    | ok s w =>
      rw [hcreate] at hok
      obtain ⟨-, rfl, confirmed, -, rfl⟩ := sessionCreate_ok_iff.mp hcreate
      have hlookup := emplace_lookup baseHeaders_location
        (loginSuccess ++ escapeToken (nextToken env h.world.next))
      rw [← hh] at hlookup
      cases hok
      exact ⟨_, rfl, rfl, hlookup⟩

/-- An error is no success. -/
theorem badAuth_no_success (hh : h.response.headers = baseHeaders) (hok : badAuth h = .ok () h') (suffix : Bytes) :
    h'.response.headers.lookup (text "Location") ≠ some (loginSuccess ++ suffix) := by
  intro hs
  obtain ⟨t, hbad, -, hgrants⟩ := badAuth_apply hh
  cases hok.symm.trans hbad
  have hprefix : loginSuccess.isPrefixOf (loginSuccess ++ suffix) = true :=
    List.isPrefixOf_iff_prefix.mpr (List.prefix_append _ _)
  simp [grants, hs, hprefix] at hgrants

/-- A callback that returns a success address has created a session. -/
theorem authGet_token {w : World} {suffix : Bytes}
    (hget : (authHandler env).get r ((authHandler env).construct env w) = .ok () h')
    (hlocation : h'.response.headers.lookup (text "Location") = some (loginSuccess ++ suffix)) :
    ∃ row, h'.world.db.sessions = w.db.sessions ++ [row] ∧ row.token = base64Encode (env.random w.draws) ∧
      suffix = tokenSuffix (env.random w.draws) := by
  let start : Handling := forwarding ((authHandler env).construct env w)
  have hbad {t : Handling} (ht : t.response.headers = baseHeaders) : badAuth t ≠ .ok () h' :=
    fun hok => badAuth_no_success ht hok suffix hlocation
  have hrun : authGet env r ((authHandler env).construct env w) = .ok () h' := hget
  rw [authGet_apply] at hrun
  split at hrun
  · exact absurd hrun (hbad rfl)
  · cases hcode : r.urlParams.lookup (text "code") with
    | none =>
      rw [hcode] at hrun
      exact absurd hrun (hbad rfl)
    | some code =>
      rw [hcode] at hrun
      have hread := @oauthLogin_read env start code
      cases hemail : googleEmail env code start.world with
      | none =>
        rw [hemail] at hread
        obtain ⟨e, he⟩ := hread
        rcases catchRuntime_returned hrun with hok | ⟨e', t, what, herror, hok⟩
        · cases he.symm.trans hok
        · cases he.symm.trans herror
          exact absurd hok (hbad rfl)
      | some email =>
        rw [hemail] at hread
        obtain ⟨-, hheaders⟩ := @oauthSession_ended env start _ email start Iff.rfl rfl rfl rfl rfl
        rcases catchRuntime_returned hrun with hok | ⟨e, t, what, herror, hok⟩
        · obtain ⟨row, hadd, htoken, hlocation'⟩ := oauthSession_token (h := start) rfl (hread.symm.trans hok)
          have hsuffix := Option.some.inj (hlocation.symm.trans hlocation')
          exact ⟨row, hadd, htoken, List.append_cancel_left hsuffix⟩
        · exact absurd hok (hbad (hheaders e t (hread.symm.trans herror)))

/-- **The token survives the redirect.** What the callback appends to the
success address is letters, digits and escapes, decodes to the token of the
session that it stored, and is what it would append for that draw alone. -/
theorem login_token_survives {w : World} {suffix : Bytes}
    (hget : (authHandler env).get r ((authHandler env).construct env w) = .ok () h')
    (hlocation : h'.response.headers.lookup (text "Location") = some (loginSuccess ++ suffix)) :
    Written isAlnum suffix ∧
      (∃ row, h'.world.db.sessions = w.db.sessions ++ [row] ∧ row.token = base64Encode (env.random w.draws) ∧
        decode suffix = row.token) ∧
      ∀ draw, tokenSuffix draw = suffix ↔ draw = env.random w.draws := by
  obtain ⟨row, hadd, htoken, rfl⟩ := authGet_token hget hlocation
  refine ⟨tokenSuffix_written _, ⟨row, hadd, htoken, (decode_tokenSuffix _).trans htoken.symm⟩, fun draw => ?_⟩
  constructor
  · exact tokenSuffix_inj
  · intro hdraw
    rw [hdraw]

/-- Google answers with a token, and then with an address. -/
def zerosEnv : Env :=
  { plainEnv with
    parse := fun _ => .ok (.object [(text "access_token", .string (text "g")),
      (text "emailAddresses", .array [.object [(text "value", .string (text "a@b"))]])]) }

def zerosWorld : World where
  db := {
    users := [{ id := 1, email := text "a@b", hash := repeated 1, nacl := repeated 0 }]
    nextUser := 2 }

def zerosRequest : HttpRequest where
  verb := .get
  path := text "/auth"
  urlParams := [(text "code", text "4")]
  contentType := []
  files := []
  body := []

theorem login_token_survives_zeros :
    Written isAlnum (tokenSuffix (repeated 0)) ∧ decode (tokenSuffix (repeated 0)) = base64Encode (repeated 0) := by
  let res := (authHandler zerosEnv).get zerosRequest ((authHandler zerosEnv).construct zerosEnv zerosWorld)
  have hlocation : (left res).response.headers.lookup (text "Location") =
      some (loginSuccess ++ tokenSuffix (repeated 0)) := by
    decide +kernel
  have hget : res = .ok () (left res) := eq_ok_of_returns (by decide +kernel)
  obtain ⟨hwritten, ⟨row, -, htoken, hdecode⟩, -⟩ := login_token_survives hget hlocation
  exact ⟨hwritten, hdecode.trans htoken⟩

end AudioToolApi
