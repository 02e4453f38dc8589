import H5Server.Codec.Url
import H5Server.Lib.Splitting
import Mathlib.Data.List.DropRight
import Mathlib.Logic.Function.Basic

/-! # Parsing requests (`HttpContext`, `HttpRequest`)

A request is parsed line by line out of the buffer of its connection. A line that is not complete stays in the buffer, so
that it does not matter in which pieces a request arrives. Where a request was complete already, the loop does not end.
-/

namespace H5Server.Http

open Codec Lib

def ascii (text : String) : List Byte := text.toList.map fun c => BitVec.ofNat 8 c.toNat

inductive Method
  | invalid | get | post | head | put | delete
  deriving DecidableEq

inductive Version
  | unknown | http10 | http11
  deriving DecidableEq

def Method.methodString : Method → String
  | .get => "GET"
  | .post => "POST"
  | .head => "HEAD"
  | .put => "PUT"
  | .delete => "DELETE"
  | .invalid => "UNKNOWN"

structure HttpRequest where
  method : Method
  version : Version
  path : List Byte
  query : List Byte
  headers : List Byte → Option (List Byte)

namespace HttpRequest

def empty : HttpRequest := ⟨.invalid, .unknown, [], [], fun _ => none⟩

variable (request : HttpRequest)

def setMethod (m : List Byte) : HttpRequest :=
  { request with
    method :=
      if m = ascii "GET" then .get
      else if m = ascii "POST" then .post
      else if m = ascii "HEAD" then .head
      else if m = ascii "PUT" then .put
      else if m = ascii "DELETE" then .delete
      else .invalid }

/-- The name of a field, and what stands behind the colon. -/
def addHeader (field value : List Byte) : HttpRequest :=
  { request with
    headers := Function.update request.headers field
      (some ((value.dropWhile (URL.isSpace ·)).rdropWhile (URL.isSpace ·))) }

def getHeader (field : List Byte) : List Byte := (request.headers field).getD []

/-- The path, and from the question mark on the query. -/
def setTarget (target : List Byte) : HttpRequest :=
  match splitFirst [63] target with
  | some (path, _) => { request with path := path, query := target.drop path.length }
  | none => { request with path := target }

/-- The last letter tells the version. -/
def setVersion (text : List Byte) : HttpRequest × Bool :=
  if text.length = 8 ∧ text.take 7 = ascii "HTTP/1." then
    if text.getLast? = some 49 then ({ request with version := .http11 }, true)
    else if text.getLast? = some 48 then ({ request with version := .http10 }, true)
    else (request, false)
  else (request, false)

/-- `HttpContext::processRequestLine`. What was read before a mistake stays in the request. -/
def processRequestLine (line : List Byte) : HttpRequest × Bool :=
  match splitFirst [32] line with
  | none => (request, false)
  | some (m, rest) =>
    if (request.setMethod m).method = .invalid then (request.setMethod m, false)
    else
      match splitFirst [32] rest with
      | none => (request.setMethod m, false)
      | some (target, version) => ((request.setMethod m).setTarget target).setVersion version

end HttpRequest

inductive ParseState
  | expectRequestLine | expectHeaders | expectBody | gotAll
  deriving DecidableEq

structure HttpContext where
  state : ParseState
  request : HttpRequest

/-- `Buffer::findCRLF`: the first line, and what stands behind its end. -/
def findCRLF (buf : List Byte) : Option (List Byte × List Byte) := splitFirst [13, 10] buf

theorem length_lt_of_findCRLF {buf line rest : List Byte} (found : findCRLF buf = some (line, rest)) :
    rest.length < buf.length := by
  have parts : line.length + 2 + rest.length = buf.length := length_of_splitFirst found
  omega

namespace HttpContext

def fresh : HttpContext := ⟨.expectRequestLine, .empty⟩

/-- Whether there was no mistake, and what is left in the buffer. Nothing, if the loop does not end. -/
def parseRequest (context : HttpContext) (buf : List Byte) : Option (Bool × HttpContext × List Byte) :=
  match context.state with
  | .expectRequestLine =>
    match _found : findCRLF buf with
    | none => some (true, context, buf)
    | some (line, rest) =>
      if (context.request.processRequestLine line).2 then
        parseRequest ⟨.expectHeaders, (context.request.processRequestLine line).1⟩ rest
      else some (false, { context with request := (context.request.processRequestLine line).1 }, buf)
  | .expectHeaders =>
    match _found : findCRLF buf with
    | none => some (true, context, buf)
    | some (line, rest) =>
      match splitFirst [58] line with
      | some (field, value) => parseRequest { context with request := context.request.addHeader field value } rest
      | none => some (true, { context with state := .gotAll }, rest)
  | .expectBody => none
  | .gotAll => none
termination_by buf.length
decreasing_by
  · exact length_lt_of_findCRLF _found
  · exact length_lt_of_findCRLF _found

variable {context context' : HttpContext} {request : HttpRequest} {buf buf' line rest : List Byte}

/-- A line that is not complete stays in the buffer. -/
theorem parseRequest_of_none (open_ : context.state = .expectRequestLine ∨ context.state = .expectHeaders)
    (none_ : findCRLF buf = none) : context.parseRequest buf = some (true, context, buf) := by
  rw [parseRequest]
  rcases open_ with state | state
  all_goals
    rw [state]
    dsimp only
    split
    · rfl
    · rename_i found
      rw [none_] at found
      contradiction

/-- The request line. -/
theorem parseRequest_requestLine (found : findCRLF buf = some (line, rest)) :
    (⟨.expectRequestLine, request⟩ : HttpContext).parseRequest buf =
      if (request.processRequestLine line).2 then
        (⟨.expectHeaders, (request.processRequestLine line).1⟩ : HttpContext).parseRequest rest
      else some (false, ⟨.expectRequestLine, (request.processRequestLine line).1⟩, buf) := by
  rw [parseRequest]
  dsimp only
  split
  · rename_i none_
    rw [found] at none_
    contradiction
  · rename_i line' rest' found'
    obtain ⟨rfl, rfl⟩ := Prod.mk.inj (Option.some.inj (found.symm.trans found'))
    rfl

/-- A line with a colon is a field. -/
theorem parseRequest_field {field value : List Byte} (found : findCRLF buf = some (line, rest))
    (named : splitFirst [58] line = some (field, value)) :
    (⟨.expectHeaders, request⟩ : HttpContext).parseRequest buf =
      (⟨.expectHeaders, request.addHeader field value⟩ : HttpContext).parseRequest rest := by
  conv_lhs => rw [parseRequest]
  dsimp only
  split
  · rename_i none_
    rw [found] at none_
    contradiction
  · rename_i line' rest' found'
    obtain ⟨rfl, rfl⟩ := Prod.mk.inj (Option.some.inj (found.symm.trans found'))
    rw [named]

/-- A line without a colon ends the request. -/
theorem parseRequest_end (found : findCRLF buf = some (line, rest)) (unnamed : splitFirst [58] line = none) :
    (⟨.expectHeaders, request⟩ : HttpContext).parseRequest buf = some (true, ⟨.gotAll, request⟩, rest) := by
  rw [parseRequest]
  dsimp only
  split
  · rename_i none_
    rw [found] at none_
    contradiction
  · rename_i line' rest' found'
    obtain ⟨rfl, rfl⟩ := Prod.mk.inj (Option.some.inj (found.symm.trans found'))
    rw [unnamed]

/-- The loop ends unless the request was complete before, or a body is expected. -/
theorem parseRequest_isSome_iff (context : HttpContext) (buf : List Byte) :
    (context.parseRequest buf).isSome ↔ context.state = .expectRequestLine ∨ context.state = .expectHeaders := by
  fun_induction parseRequest context buf with
  | case1 context buf state => exact iff_of_true rfl (.inl state)
  | case2 context buf state line rest found good ih => exact iff_of_true (ih.mpr (.inr rfl)) (.inl state)
  | case3 context buf state => exact iff_of_true rfl (.inl state)
  | case4 context buf state => exact iff_of_true rfl (.inr state)
  | case5 context buf state line rest found field value named ih => exact iff_of_true (ih.mpr (.inr state)) (.inr state)
  | case6 context buf state => exact iff_of_true rfl (.inr state)
  | case7 context buf state =>
    rw [state]
    exact iff_of_false Bool.false_ne_true (by rintro (impossible | impossible) <;> cases impossible)
  | case8 context buf state =>
    rw [state]
    exact iff_of_false Bool.false_ne_true (by rintro (impossible | impossible) <;> cases impossible)

/-! ## Pieces -/

/-- What is parsed does not depend on what arrives later; only where a line was missing, parsing goes on. -/
theorem parseRequest_append {ok : Bool} (parsed : context.parseRequest buf = some (ok, context', buf')) (more : List Byte) :
    context.parseRequest (buf ++ more) =
      if ok ∧ context'.state ≠ .gotAll then context'.parseRequest (buf' ++ more) else some (ok, context', buf' ++ more) := by
  fun_induction parseRequest context buf with
  | case1 context buf state none_ =>
    cases parsed
    rw [if_pos ⟨rfl, by rw [state]; rintro ⟨⟩⟩]
  | case2 context buf state line rest found good ih =>
    obtain ⟨_, request⟩ := context
    cases state
    rw [parseRequest_requestLine (splitFirst_append found more), if_pos good]
    exact ih parsed
  | case3 context buf state line rest found bad =>
    obtain ⟨_, request⟩ := context
    cases state
    cases parsed
    rw [parseRequest_requestLine (splitFirst_append found more), if_neg bad, if_neg fun good => absurd good.1 Bool.false_ne_true]
  | case4 context buf state none_ =>
    cases parsed
    rw [if_pos ⟨rfl, by rw [state]; rintro ⟨⟩⟩]
  | case5 context buf state line rest found field value named ih =>
    obtain ⟨_, request⟩ := context
    cases state
    rw [parseRequest_field (splitFirst_append found more) named]
    exact ih parsed
  | case6 context buf state line rest found unnamed =>
    obtain ⟨_, request⟩ := context
    cases state
    cases parsed
    rw [parseRequest_end (splitFirst_append found more) unnamed, if_neg fun open_ => open_.2 rfl]
  | case7 context buf state => contradiction
  | case8 context buf state => contradiction

/-- Pieces that arrive one after the other, parsed each time. Once the request is complete or there is a mistake, what
arrives stays in the buffer. -/
def feed (context : HttpContext) (buf : List Byte) : List (List Byte) → Option (Bool × HttpContext × List Byte)
  | [] => some (true, context, buf)
  | piece :: pieces =>
    (context.parseRequest (buf ++ piece)).bind fun (ok, context', buf') =>
      if ok ∧ context'.state ≠ .gotAll then context'.feed buf' pieces else some (ok, context', buf' ++ pieces.flatten)

/-- What is left in the buffer without a mistake has no complete line, or the request is complete. -/
theorem parseRequest_idle (parsed : context.parseRequest buf = some (true, context', buf')) (open_ : context'.state ≠ .gotAll) :
    context'.parseRequest buf' = some (true, context', buf') := by
  fun_induction parseRequest context buf with
  | case1 context buf state none_ =>
    cases parsed
    exact parseRequest_of_none (.inl state) none_
  | case2 context buf state line rest found good ih => exact ih parsed
  | case3 context buf state line rest found bad => cases parsed
  | case4 context buf state none_ =>
    cases parsed
    exact parseRequest_of_none (.inr state) none_
  | case5 context buf state line rest found field value named ih => exact ih parsed
  | case6 context buf state line rest found unnamed =>
    cases parsed
    exact absurd rfl open_
  | case7 context buf state => contradiction
  | case8 context buf state => contradiction

/-- The pieces of a text are parsed as the whole text is. -/
theorem feed_eq_parseRequest (pieces : List (List Byte)) (idle : context.parseRequest buf = some (true, context, buf)) :
    context.feed buf pieces = context.parseRequest (buf ++ pieces.flatten) := by
  induction pieces generalizing context buf with
  | nil =>
    rw [feed, List.flatten_nil, List.append_nil]
    exact idle.symm
  | cons piece pieces ih =>
    rw [feed, List.flatten_cons, ← List.append_assoc]
    cases parsed : context.parseRequest (buf ++ piece) with
    | none =>
      have ends : (context.parseRequest buf).isSome := by rw [idle]; rfl
      have ends' := (parseRequest_isSome_iff context (buf ++ piece)).mpr ((parseRequest_isSome_iff context buf).mp ends)
      rw [parsed] at ends'
      contradiction
    | some result =>
      obtain ⟨ok, context', buf'⟩ := result
      rw [parseRequest_append parsed, Option.bind_some]
      dsimp only
      split
      · rename_i goes_on
        obtain ⟨rfl, open_⟩ := goes_on
        exact ih (parseRequest_idle parsed open_)
      · rfl

theorem feed_eq_parseRequest_pair :
    fresh.feed [] [ascii "GET / HT", ascii "TP/1.1\r\n\r\n"] = fresh.parseRequest (ascii "GET / HTTP/1.1\r\n\r\n") :=
  feed_eq_parseRequest [ascii "GET / HT", ascii "TP/1.1\r\n\r\n"] (parseRequest_of_none (.inl rfl) rfl)

end HttpContext

end H5Server.Http
