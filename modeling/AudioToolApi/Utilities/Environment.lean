/-
What the program is given and does not compute: the libraries it calls, its
configuration, random draws, and the memory it reads without having written
it. One `Env` is taken for a request, and for a run of requests too.
-/
import AudioToolApi.Utilities.Database

namespace AudioToolApi

/-- How `AP::process` ends on a file. -/
inductive AudioEnd
  | output (content : Bytes) (sampleRate : Int)
  /-- `throw "..."`, which is not a `std::exception`. -/
  | threw
  /-- The bare `throw;` of `filter_encode_write`, or a flush that never ends. -/
  | gone
  deriving DecidableEq, Repr

/-- The fields that no constructor sets. -/
structure Uninit where
  userId : Int := 0
  sessionExpires : Int := 0
  sessionCreated : Int := 0
  sessionUserId : Int := 0
  fileId : Int := 0
  fileSize : Nat := 0
  fileSampleRate : Int := 0
  fileUserId : Int := 0
  projectId : Int := 0
  projectCreatorId : Int := 0
  projectIsDeleted : Bool := false

structure Env where
  /-- `nlohmann::json::parse`: the value, or the `what()` of its error. -/
  parse : Bytes → Except Bytes Json
  /-- `PKCS5_PBKDF2_HMAC_SHA1(pass, salt)`, with 1000 rounds; `none` is a
  result other than 1. -/
  pbkdf2 : Bytes → Bytes → Option Block
  /-- The bytes of each call of `RAND_bytes`. -/
  random : Nat → Block
  /-- The values of `UUID()`. -/
  uuid : Nat → Bytes
  audio : Bytes → AudioEnd
  /-- The memory after `hash` and `test_hash` in `user_model::authenticate`. -/
  afterHash : Bytes
  afterTestHash : Bytes
  uninit : Uninit
  /-- The body of Google's answer to the form that `get_token` posts. -/
  tokenReply : Bytes → Bytes
  /-- The body of Google's answer to an access token. -/
  peopleReply : Bytes → Bytes
  /-- `curl_easy_unescape`. -/
  unescape : Bytes → Bytes
  googleAuthClientId : Bytes
  googleAuthSecret : Bytes
  pathPrefix : Bytes
  /-- What `test_handler` reads from `/dev/urandom`. -/
  urandom : Bytes
  /-- `http::int_to_status`. -/
  intToStatus : Int → Nat

/-- A block of one byte over and over. -/
def repeated (c : UInt8) : Block := ⟨List.replicate 128 c, List.length_replicate⟩

/-- Nothing is configured, no JSON parses and no audio decodes. -/
def plainEnv : Env where
  parse _ := .error []
  pbkdf2 _ _ := some (repeated 1)
  random k := repeated k.toUInt8
  uuid k := decimal k
  audio _ := .threw
  afterHash := []
  afterTestHash := []
  uninit := {}
  tokenReply _ := []
  peopleReply _ := []
  unescape s := s
  googleAuthClientId := []
  googleAuthSecret := []
  pathPrefix := []
  urandom := []
  intToStatus code := code.toNat

end AudioToolApi
