/-
What a reused worker sees. `start` resets the request and the response, but
neither `parser_` nor `buffer_`: what one connection leaves in them is what
the next one starts from.
-/
import AudioToolApi.Http.Worker

namespace AudioToolApi

variable {σ : Type} {B : BeastParser σ}

/-- A finished worker serves any connection, and is finished again. -/
theorem Worker.serve_some {w : Worker σ} (hw : w.hasFinished = true) (c : Connection) :
    ∃ w', w'.hasFinished = true ∧
      w'.parser_ = (asyncRead B c w.parser_ w.buffer_).parser ∧
      w'.buffer_ = (asyncRead B c w.parser_ w.buffer_).buffer ∧
      w.serve B c = some (w', if (asyncRead B c w.parser_ w.buffer_).ok then
        some (B.get (asyncRead B c w.parser_ w.buffer_).parser) else none) := by
  let r := asyncRead B c w.parser_ w.buffer_
  refine ⟨{ w with
    conn := none, parser_ := r.parser, buffer_ := r.buffer, hasFinished := true, hasStarted := true
    request_ := some (if r.ok then B.get r.parser else .empty) }, rfl, rfl, rfl, ?_⟩
  cases hok : r.ok <;> simp [serve, start, hw, read, readHandler, closeSocket, r, hok]

theorem Worker.serveAll_append {w : Worker σ} {cs cs' : List Connection} :
    w.serveAll B (cs ++ cs') = (w.serveAll B cs).bind fun w => w.serveAll B cs' := by
  induction cs generalizing w with
  | nil => rfl
  | cons c cs ih =>
    rw [List.cons_append, serveAll, serveAll, Option.bind_assoc]
    exact congrArg _ (funext fun _ => ih)

/-- Between connections a worker is finished, so `start` never throws. -/
theorem Worker.serveAll_some {w : Worker σ} (hw : w.hasFinished = true) (cs : List Connection) :
    ∃ w', w'.hasFinished = true ∧ w.serveAll B cs = some w' := by
  induction cs generalizing w with
  | nil => exact ⟨w, hw, rfl⟩
  | cons c cs ih =>
    obtain ⟨w', hw', -, -, hs⟩ := Worker.serve_some (B := B) hw c
    rw [serveAll, hs]
    exact ih hw'

/-! ## Nothing left behind -/

/-- What `read` goes on from is what a new worker has. -/
def Worker.Clean (B : BeastParser σ) (w : Worker σ) : Prop :=
  w.hasFinished = true ∧ w.parser_ = B.fresh ∧ w.buffer_ = []

theorem asyncRead_silent {c : Connection} (hc : c.received = []) :
    asyncRead B c B.fresh [] = ⟨false, B.fresh, []⟩ := by
  have hreads : c.reads = [] := List.eq_nil_iff_forall_not_mem.mpr fun r hr =>
    c.read_ne_nil r hr (List.flatten_eq_nil_iff.mp hc r hr)
  simp [asyncRead, readLoop, hreads, B.fresh_isDone, B.fresh_gotSome]

theorem Worker.Clean.serve {w w' : Worker σ} {c : Connection} {r : Option Request} (hw : w.Clean B)
    (hc : c.received = []) (h : w.serve B c = some (w', r)) : w'.Clean B := by
  obtain ⟨hf, hp, hb⟩ := hw
  obtain ⟨v, hv, hvp, hvb, hs⟩ := Worker.serve_some (B := B) hf c
  rw [hp, hb, asyncRead_silent hc] at hvp hvb
  cases h.symm.trans hs
  exact ⟨hv, hvp, hvb⟩

theorem Worker.Clean.serveAll {w w' : Worker σ} {cs : List Connection} (hw : w.Clean B)
    (hcs : ∀ c ∈ cs, c.received = []) (h : w.serveAll B cs = some w') : w'.Clean B := by
  induction cs generalizing w with
  | nil => exact Option.some.inj h ▸ hw
  | cons c cs ih =>
    obtain ⟨⟨v, r⟩, hs, h⟩ := Option.bind_eq_some_iff.mp h
    exact ih (hw.serve (hcs c (.head _)) hs) (fun c hc => hcs c (.tail _ hc)) h

/-- The request depends on the parser and the buffer the connection finds. -/
theorem Worker.Clean.request {w : Worker σ} (hw : w.Clean B) (c : Connection) :
    (w.serve B c).bind Prod.snd = ((Worker.fresh B).serve B c).bind Prod.snd := by
  obtain ⟨hf, hp, hb⟩ := hw
  obtain ⟨v, -, -, -, hs⟩ := Worker.serve_some (B := B) hf c
  obtain ⟨v', -, -, -, hs'⟩ := Worker.serve_some (B := B) (w := Worker.fresh B) rfl c
  rw [hs, hs', hp, hb]
  rfl

/-! ## A request left behind -/

/-- The parser is done with `r`. -/
def Worker.Stuck (B : BeastParser σ) (r : Request) (w : Worker σ) : Prop :=
  w.hasFinished = true ∧ B.isDone w.parser_ = true ∧ B.get w.parser_ = r

theorem putBuffer_ok {p : σ} {buffer : Bytes} {more : σ → Bytes → ReadResult σ}
    (hmore : ∀ p b, (more p b).ok = true → B.isDone (more p b).parser = true)
    (h : (putBuffer B p buffer more).ok = true) : B.isDone (putBuffer B p buffer more).parser = true := by
  unfold putBuffer at h ⊢
  dsimp only at h ⊢
  split at h
  · cases h
  split at h
  · rename_i hf hd
    rw [if_neg hf, if_pos hd]
    exact hd
  · rename_i hf hd
    rw [if_neg hf, if_neg hd]
    exact hmore _ _ h

theorem readLoop_ok {eof : Bool} : ∀ {rs : List Bytes} {p : σ} {buffer : Bytes},
    (readLoop B eof rs p buffer).ok = true → B.isDone (readLoop B eof rs p buffer).parser = true
  | [], p, buffer, h => by
    unfold readLoop at h ⊢
    split at h
    · rename_i he
      rw [if_pos he]
      exact (Bool.and_eq_true_iff.mp h).2
    · cases h
  | r :: rs, p, buffer, h => by
    unfold readLoop at h ⊢
    split at h
    · cases h
    · rename_i hl
      rw [if_neg hl]
      exact putBuffer_ok (fun _ _ => readLoop_ok) h

/-- A read without an error leaves a parser that is done. -/
theorem asyncRead_ok {c : Connection} {p : σ} {buffer : Bytes} (h : (asyncRead B c p buffer).ok = true) :
    B.isDone (asyncRead B c p buffer).parser = true := by
  unfold asyncRead at h ⊢
  split
  · assumption
  · rename_i hd
    rw [if_neg hd] at h
    split
    · rename_i he
      rw [if_pos he] at h
      exact readLoop_ok h
    · rename_i he
      rw [if_neg he] at h
      exact putBuffer_ok (fun _ _ => readLoop_ok) h

theorem Worker.Stuck.of_serve {w w' : Worker σ} {c : Connection} {r : Request} (hw : w.hasFinished = true)
    (h : w.serve B c = some (w', some r)) : w'.Stuck B r := by
  obtain ⟨v, hv, hvp, -, hs⟩ := Worker.serve_some (B := B) hw c
  rw [hs] at h
  simp only [Option.some.injEq, Prod.mk.injEq, Option.ite_none_right_eq_some] at h
  obtain ⟨rfl, hok, hr⟩ := h
  exact ⟨hv, hvp ▸ asyncRead_ok hok, hvp ▸ hr⟩

/-- A worker that is stuck sees the same request again, whatever arrives. -/
theorem Worker.Stuck.serve {w : Worker σ} {r : Request} (hw : w.Stuck B r) (c : Connection) :
    ∃ w', w'.Stuck B r ∧ w.serve B c = some (w', some r) := by
  obtain ⟨hf, hd, hg⟩ := hw
  have hread : asyncRead B c w.parser_ w.buffer_ = ⟨true, w.parser_, w.buffer_⟩ := if_pos hd
  obtain ⟨v, hv, hvp, -, hs⟩ := Worker.serve_some (B := B) hf c
  rw [hread] at hvp hs
  exact ⟨v, ⟨hv, hvp ▸ hd, hvp ▸ hg⟩, hg ▸ hs⟩

theorem Worker.Stuck.serveAll {w : Worker σ} {r : Request} (hw : w.Stuck B r) (cs : List Connection) :
    ∃ w', w'.Stuck B r ∧ w.serveAll B cs = some w' := by
  induction cs generalizing w with
  | nil => exact ⟨w, hw, rfl⟩
  | cons c cs ih =>
    obtain ⟨v, hv, hs⟩ := hw.serve c
    rw [Worker.serveAll, hs]
    exact ih hv

/-! ## Requests on a reused worker -/

/-- **Whose request a reused worker processes.** As long as no earlier
connection has delivered a byte, the request of a connection is the one a
new worker would see, so that of two runs it is the same. Once a connection
has been read to the end of its request, every later one is answered with
that request. -/
theorem request_of_reused_worker (B : BeastParser σ) :
    (∀ cs cs' c, (∀ d ∈ cs, d.received = []) → (∀ d ∈ cs', d.received = []) →
      requestFor B cs c = requestFor B cs' c) ∧
    (∀ cs d cs' c r, requestFor B cs d = some r → requestFor B (cs ++ d :: cs') c = some r) := by
  have clean : (Worker.fresh B).Clean B := ⟨rfl, rfl, rfl⟩
  have alone : ∀ cs c, (∀ d ∈ cs, d.received = []) → requestFor B cs c = requestFor B [] c := by
    intro cs c hcs
    obtain ⟨w, -, hw⟩ := Worker.serveAll_some (B := B) (w := Worker.fresh B) rfl cs
    simp only [requestFor, hw, Option.bind_some]
    exact (clean.serveAll hcs hw).request c
  refine ⟨fun cs cs' c h h' => (alone cs c h).trans (alone cs' c h').symm, fun cs d cs' c r h => ?_⟩
  obtain ⟨w, hf, hw⟩ := Worker.serveAll_some (B := B) (w := Worker.fresh B) rfl cs
  simp only [requestFor, hw, Option.bind_some, Option.bind_eq_some_iff, Prod.exists] at h
  obtain ⟨v, s, hs, rfl⟩ := h
  obtain ⟨u, hu, hus⟩ := (Worker.Stuck.of_serve hf hs).serveAll cs'
  obtain ⟨t, -, ht⟩ := hu.serve c
  simp only [requestFor, Worker.serveAll_append, hw, Worker.serveAll, hs, hus, ht, Option.bind_some]

/-! A parser of requests without fields, and connections that ask for a
target and close, or only close. -/

def headRequest (head : Bytes) : Request where
  method := .get
  methodString := text "GET"
  target := ((head.dropWhile (· ≠ 32)).drop 1).takeWhile (· ≠ 32)
  fields := []
  body := []
  method_ascii := get_ascii
  value_no_NUL := no_fields

def headParser : BeastParser (Bool × Option Request) where
  fresh := (false, none)
  isDone p := p.2.isSome
  gotSome p := p.1
  put p buffer := match find (crlf ++ crlf) buffer with
    | some n => ((true, some (headRequest (buffer.take n))), n + 4, false)
    | none => ((p.1 || !buffer.isEmpty, p.2), 0, false)
  putEof p := (p, false)
  get p := p.2.getD .empty
  fresh_isDone := rfl
  fresh_gotSome := rfl

def ask (target : Bytes) : Connection where
  reads := [text "GET " ++ target ++ text " HTTP/1.1" ++ crlf ++ crlf]
  eof := true
  read_ne_nil := by
    have h : text "GET " = [71, 69, 84, 32] := by decide
    simp [h]

def quiet : Connection where
  reads := []
  eof := true
  read_ne_nil := nofun

theorem request_of_reused_worker_quiet :
    requestFor headParser [quiet, quiet] (ask (text "/a")) = requestFor headParser [] (ask (text "/a")) ∧
    requestFor headParser [ask (text "/a"), quiet] (ask (text "/b")) =
      some (headRequest (text "GET /a HTTP/1.1")) :=
  ⟨(request_of_reused_worker headParser).1 [quiet, quiet] [] _ (by decide) (by decide),
    (request_of_reused_worker headParser).2 [] (ask (text "/a")) [quiet] _ _ rfl⟩

/-- The second client is answered what the first one asked for. -/
theorem request_leaks :
    ¬ ∀ (cs cs' : List Connection) (c : Connection), cs.length = cs'.length →
      requestFor headParser cs c = requestFor headParser cs' c := by
  intro h
  have hc := congrArg (Option.map Request.target) (h [ask (text "/a")] [ask (text "/b")] (ask (text "/c")) rfl)
  revert hc
  decide

end AudioToolApi
