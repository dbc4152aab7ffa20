/-
One `http_worker` (http/http_worker.cpp) over the connections it is given,
up to the request that `process` sees.

Beast's parser is a parameter, and `async_read` is as Beast is assumed to do
it. The body limit of the parser, which every `start` sets to the same value
before anything is read, is part of its state here. What a connection's time
stamps and the response hold has no effect on what is read, and is left out.
-/
import AudioToolApi.Http.Request

namespace AudioToolApi

/-- `http::request_parser<http::string_body>`. -/
structure BeastParser (σ : Type) where
  /-- As constructed. -/
  fresh : σ
  isDone : σ → Bool
  gotSome : σ → Bool
  /-- Parses what is in the buffer, from where it stopped: the number of bytes
  it is through with, and whether it failed. -/
  put : σ → Bytes → σ × Nat × Bool
  putEof : σ → σ × Bool
  get : σ → Request
  fresh_isDone : isDone fresh = false
  fresh_gotSome : gotSome fresh = false

/-- What a connection delivers: the bytes of each read of its socket, until
the peer has no more (`eof`) or a read fails. -/
structure Connection where
  reads : List Bytes
  eof : Bool
  read_ne_nil : ∀ r ∈ reads, r ≠ []

def Connection.received (c : Connection) : Bytes := c.reads.flatten

/-! ## `async_read`

Beast's, not the server's: this section is how it is assumed to use the parser
it is given. It hands the parser what is in the buffer, and what more it reads,
until the parser is done or has failed, and leaves in the buffer what the parser
did not use. -/

/-- How `async_read` completes: without an error, and with what parser and
buffer. -/
structure ReadResult (σ : Type) where
  ok : Bool
  parser : σ
  buffer : Bytes

variable {σ : Type}

/-- `parser.put` on the buffer, and what to do when it needs more. -/
def putBuffer (B : BeastParser σ) (p : σ) (buffer : Bytes) (more : σ → Bytes → ReadResult σ) : ReadResult σ :=
  let (p, used, failed) := B.put p buffer
  if failed then ⟨false, p, buffer.drop used⟩
  else if B.isDone p then ⟨true, p, buffer.drop used⟩
  else more p (buffer.drop used)

/-- The reads of the socket. A `flat_static_buffer<8192>` takes no more than
that. -/
def readLoop (B : BeastParser σ) (eof : Bool) : List Bytes → σ → Bytes → ReadResult σ
  | [], p, buffer =>
    if eof && B.gotSome p then
      let (p, ok) := B.putEof p
      ⟨ok && B.isDone p, p, buffer⟩
    else ⟨false, p, buffer⟩
  | r :: rs, p, buffer =>
    if 8192 < buffer.length + r.length then ⟨false, p, buffer⟩
    else putBuffer B p (buffer ++ r) (readLoop B eof rs)

/-- `http::async_read(*conn->socket, buffer, parser, ...)`: a parser that is
done completes at once; bytes that are in the buffer come first. -/
def asyncRead (B : BeastParser σ) (c : Connection) (p : σ) (buffer : Bytes) : ReadResult σ :=
  if B.isDone p then ⟨true, p, buffer⟩
  else if buffer.isEmpty then readLoop B c.eof c.reads p buffer
  else putBuffer B p buffer (readLoop B c.eof c.reads)

/-! ## The worker -/

/-- `http::request<http::string_body>()`. -/
def Request.empty : Request where
  method := .other
  methodString := []
  target := []
  fields := []
  body := []
  method_ascii := nofun
  value_no_NUL := no_fields

structure Worker (σ : Type) where
  conn : Option Connection := none
  parser_ : σ
  buffer_ : Bytes := []
  request_ : Option Request := none
  hasFinished : Bool := true
  hasStarted : Bool := false

/-- `http_worker::start`, up to `read()`; `none` is its throw. -/
def Worker.start (w : Worker σ) (c : Connection) : Option (Worker σ) :=
  if w.hasFinished then
    some { w with conn := some c, hasFinished := false, hasStarted := true, request_ := some .empty }
  else none

def Worker.read (B : BeastParser σ) (w : Worker σ) (c : Connection) : Worker σ × Bool :=
  let r := asyncRead B c w.parser_ w.buffer_
  ({ w with parser_ := r.parser, buffer_ := r.buffer }, r.ok)

def Worker.closeSocket (w : Worker σ) : Worker σ := { w with hasFinished := true, conn := none }

/-- `read_handler`, with the request that `process` sees. Once the answer is
written, or the write has failed, the socket is closed. -/
def Worker.readHandler (B : BeastParser σ) (w : Worker σ) (ok : Bool) : Worker σ × Option Request :=
  if ok then
    let w := { w with request_ := some (B.get w.parser_) }
    (w.closeSocket, w.request_)
  else (w.closeSocket, none)

/-- A connection from `start` to `close_socket`. -/
def Worker.serve (B : BeastParser σ) (w : Worker σ) (c : Connection) : Option (Worker σ × Option Request) :=
  (w.start c).map fun w =>
    let (w, ok) := w.read B c
    w.readHandler B ok

def Worker.serveAll (B : BeastParser σ) (w : Worker σ) : List Connection → Option (Worker σ)
  | [] => some w
  | c :: cs => (w.serve B c).bind fun (w, _) => w.serveAll B cs

/-- A worker as constructed. -/
def Worker.fresh (B : BeastParser σ) : Worker σ := { parser_ := B.fresh }

/-- The request that `process` sees for `c`, on a worker that has had the
connections `cs`. -/
def requestFor (B : BeastParser σ) (cs : List Connection) (c : Connection) : Option Request :=
  ((Worker.fresh B).serveAll B cs).bind fun w => (w.serve B c).bind Prod.snd

end AudioToolApi
