/-
`multipart_parser_execute` (http/multipart_parser.c), with the callbacks
that `http_request` sets: `on_part_data` appends to `current_file_data`,
`on_part_data_end` adds it to `files` and clears it. The other callbacks are
null there, and no callback stops the parser.
-/
import AudioToolApi.Utilities.Text

namespace AudioToolApi.Multipart

inductive State
  | start | startBoundary | headerFieldStart | headerField | headersAlmostDone | headerValueStart
  | headerValue | headerValueAlmostDone | partDataStart | partData | partDataAlmostBoundary
  | partDataBoundary | partDataAlmostEnd | partDataEnd | partDataFinalHyphen | «end»
  deriving DecidableEq, Repr

/-- `multipart_parser`, its caller's `files` and `current_file_data`, and the
`mark` of the loop. -/
structure Parser where
  index : Nat := 0
  state : State := .start
  /-- `multipart_boundary`, as `strcpy` stores it: NUL included. -/
  boundary : Bytes
  boundaryLength : Nat
  lookbehind : Bytes
  files : List Bytes := []
  currentFileData : Bytes := []
  mark : Nat := 0
  deriving DecidableEq, Repr

/-- `multipart_parser_init`. Past the boundary the allocation leaves
`strlen(boundary) + 9` bytes, whatever they hold. -/
def init (boundary : Bytes) : Parser :=
  let b := cStr boundary
  { boundary := b ++ [0], boundaryLength := b.length, lookbehind := List.replicate (b.length + 9) 0 }

/-- One turn of the loop: on to index `i`, out with `return n`, or an access
outside an allocation. -/
inductive Turn
  | next (i : Nat) (p : Parser)
  | ret (n : Nat) (p : Parser)
  | fault
  deriving DecidableEq, Repr

/-- `EMIT_DATA_CB(part_data, ...)`. -/
def Parser.emit (p : Parser) (data : Bytes) : Parser :=
  { p with currentFileData := p.currentFileData ++ data }

/-- `NOTIFY_CB(part_data_end)`. -/
def Parser.partDataEnd (p : Parser) : Parser :=
  { p with files := p.files ++ [p.currentFileData], currentFileData := [] }

/-- `buf[mark .. mark + n)`. -/
def slice (buf : Bytes) (mark n : Nat) : Bytes := (buf.drop mark).take n

/-- `p->lookbehind[k] = c`. -/
def Parser.setLookbehind (p : Parser) (k : Nat) (c : UInt8) (next : Parser → Turn) : Turn :=
  if k < p.lookbehind.length then next { p with lookbehind := p.lookbehind.set k c } else .fault

/-- The first `n` bytes of the lookbehind go out as data. -/
def Parser.emitLookbehind (p : Parser) (n : Nat) (next : Parser → Turn) : Turn :=
  if n ≤ p.lookbehind.length then next (p.emit (p.lookbehind.take n)) else .fault

/-- `p->multipart_boundary[p->index]`. -/
def Parser.withBoundary (p : Parser) (next : UInt8 → Turn) : Turn :=
  match p.boundary[p.index]? with
  | some b => next b
  | none => .fault

def startBoundary (i : Nat) (c : UInt8) (p : Parser) : Turn :=
  if p.index = p.boundaryLength then
    if c ≠ CR then .ret i p else .next (i + 1) { p with index := p.index + 1 }
  else if p.index = p.boundaryLength + 1 then
    if c ≠ LF then .ret i p else .next (i + 1) { p with index := 0, state := .headerFieldStart }
  else p.withBoundary fun b =>
    if c ≠ b then .ret i p else .next (i + 1) { p with index := p.index + 1 }

def headerField (i : Nat) (c : UInt8) (p : Parser) : Turn :=
  if c = CR then .next (i + 1) { p with state := .headersAlmostDone }
  else if c = 32 ∨ c = 9 then .next (i + 1) { p with state := .headerValueStart }
  else if c = 58 then .next (i + 1) { p with state := .headerValueStart }
  else if c ≠ 45 ∧ (toLower c < 97 ∨ 122 < toLower c) then .ret i p
  else .next (i + 1) p

def headerValue (i : Nat) (c : UInt8) (p : Parser) : Turn :=
  if c = CR then .next (i + 1) { p with state := .headerValueAlmostDone } else .next (i + 1) p

def partData (buf : Bytes) (i : Nat) (c : UInt8) (p : Parser) : Turn :=
  if c = CR then
    let p := p.emit (slice buf p.mark (i - p.mark))
    { p with mark := i, state := .partDataAlmostBoundary }.setLookbehind 0 CR (.next (i + 1))
  else if i = buf.length - 1 then .next (i + 1) (p.emit (slice buf p.mark (i - p.mark + 1)))
  else .next (i + 1) p

/-- `mark = i --`, and `++ i` at the end of the loop: the byte is read again,
as data. -/
def reread (i : Nat) (p : Parser) : Turn := .next i { p with state := .partData, mark := i }

/-- The `switch` on the byte `c = buf[i]`. -/
def turn (buf : Bytes) (i : Nat) (c : UInt8) (p : Parser) : Turn :=
  match p.state with
  | .start => startBoundary i c { p with index := 0, state := .startBoundary }
  | .startBoundary => startBoundary i c p
  | .headerFieldStart => headerField i c { p with mark := i, state := .headerField }
  | .headerField => headerField i c p
  | .headersAlmostDone => if c ≠ LF then .ret i p else .next (i + 1) { p with state := .partDataStart }
  | .headerValueStart =>
    if c = 32 ∨ c = 9 then .next (i + 1) p
    else headerValue i c { p with mark := i, state := .headerValue }
  | .headerValue => headerValue i c p
  | .headerValueAlmostDone =>
    if c ≠ LF then .ret i p else .next (i + 1) { p with state := .headerFieldStart }
  | .partDataStart => partData buf i c { p with mark := i, state := .partData }
  | .partData => partData buf i c p
  | .partDataAlmostBoundary =>
    if c = LF then
      { p with state := .partDataBoundary, index := 0 }.setLookbehind 1 LF (.next (i + 1))
    else p.emitLookbehind 1 (reread i)
  | .partDataBoundary => p.withBoundary fun b =>
    if b ≠ c then p.emitLookbehind (2 + p.index) (reread i)
    else p.setLookbehind (2 + p.index) c fun p =>
      let p := { p with index := p.index + 1 }
      if p.index = p.boundaryLength then .next (i + 1) { p.partDataEnd with state := .partDataAlmostEnd }
      else .next (i + 1) p
  | .partDataAlmostEnd =>
    if c = 45 then .next (i + 1) { p with state := .partDataFinalHyphen }
    else if c = CR then .next (i + 1) { p with state := .partDataEnd }
    else .ret i p
  | .partDataFinalHyphen => if c = 45 then .next (i + 1) { p with state := .end } else .ret i p
  | .partDataEnd => if c = LF then .next (i + 1) { p with state := .headerFieldStart } else .ret i p
  | .end => .next (i + 1) p

/-- How the loop ends: `return n`, or an access outside an allocation. -/
inductive Ended
  | returned (n : Nat) (p : Parser)
  | fault
  deriving DecidableEq, Repr

/-- `while(i < len)`, for at most `fuel` turns. -/
def loop (buf : Bytes) : Nat → Nat → Parser → Option Ended
  | 0, _, _ => none
  | fuel + 1, i, p =>
    match buf[i]? with
    | none => some (.returned buf.length p)
    | some c =>
      match turn buf i c p with
      | .next i' p' => loop buf fuel i' p'
      | .ret n p' => some (.returned n p')
      | .fault => some .fault

/-- `multipart_parser_execute`. A byte is read at most twice. -/
def multipartParserExecute (p : Parser) (buf : Bytes) : Option Ended := loop buf (2 * buf.length + 2) 0 p

end AudioToolApi.Multipart
