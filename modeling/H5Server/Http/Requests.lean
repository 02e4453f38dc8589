import H5Server.Http.HttpContext

/-! # Requests as they are written

A request whose parts hold none of the separators is parsed as it was written. Of several fields with one name the last
one counts.
-/

namespace H5Server.Http

open Codec Lib

def Version.text : Version → String
  | .http11 => "HTTP/1.1"
  | .http10 => "HTTP/1.0"
  | .unknown => ""

/-- A field that can be told from what is around it: without an end of line, a colon or a blank in its name, or white space
around its value. -/
structure PlainField (field : List Byte × List Byte) : Prop where
  name : ∀ c ∈ field.1, c ≠ 13 ∧ c ≠ 58 ∧ c ≠ 32
  value : ∀ c ∈ field.2, c ≠ 13
  first : ∀ c ∈ field.2.head?, URL.isSpace c = false
  last : ∀ c ∈ field.2.getLast?, URL.isSpace c = false

/-- A request without a body. -/
structure Message where
  method : Method
  path : List Byte
  query : List Byte
  version : Version
  fields : List (List Byte × List Byte)
  method_ne : method ≠ .invalid
  version_ne : version ≠ .unknown
  path_plain : ∀ c ∈ path, c ≠ 13 ∧ c ≠ 32 ∧ c ≠ 63
  query_plain : ∀ c ∈ query, c ≠ 13 ∧ c ≠ 32
  query_mark : query = [] ∨ query.head? = some 63
  fields_plain : ∀ field ∈ fields, PlainField field

namespace Message

variable (message : Message)

def requestLine : List Byte :=
  ascii message.method.methodString ++ 32 :: (message.path ++ message.query ++ 32 :: ascii message.version.text)

def fieldLine (field : List Byte × List Byte) : List Byte := field.1 ++ 58 :: 32 :: field.2

/-- The fields, and the empty line behind them. -/
def head (fields : List (List Byte × List Byte)) : List Byte :=
  fields.flatMap (fun field => fieldLine field ++ [13, 10]) ++ [13, 10]

def text : List Byte := message.requestLine ++ ([13, 10] ++ head message.fields)

/-- The fields put into a map one after the other. -/
def put (headers : List Byte → Option (List Byte)) (fields : List (List Byte × List Byte)) :
    List Byte → Option (List Byte) :=
  fields.foldl (fun headers field => Function.update headers field.1 (some field.2)) headers

/-- What is to be read. -/
def request : HttpRequest :=
  ⟨message.method, message.version, message.path, message.query, put (fun _ => none) message.fields⟩

end Message

/-! ## The request line -/

theorem setMethod_methodString (request : HttpRequest) {method : Method} (method_ne : method ≠ .invalid) :
    request.setMethod (ascii method.methodString) = { request with method := method } := by
  cases method with
  | invalid => exact absurd rfl method_ne
  | get => rfl
  | post => rfl
  | head => rfl
  | put => rfl
  | delete => rfl

theorem setVersion_text (request : HttpRequest) {version : Version} (version_ne : version ≠ .unknown) :
    request.setVersion (ascii version.text) = ({ request with version := version }, true) := by
  cases version with
  | unknown => exact absurd rfl version_ne
  | http10 => rfl
  | http11 => rfl

variable (message : Message)

theorem Message.setTarget_eq (request : HttpRequest) (query : request.query = []) :
    request.setTarget (message.path ++ message.query) = { request with path := message.path, query := message.query } := by
  have path : (63 : Byte) ∉ message.path := fun mark => (message.path_plain 63 mark).2.2 rfl
  rw [HttpRequest.setTarget]
  rcases message.query_mark with none_ | mark
  · rw [none_, List.append_nil, splitFirst_eq_none path, ← query]
  · obtain ⟨rest, eq⟩ : ∃ rest, message.query = 63 :: rest := by
      cases eq : message.query with
      | nil => rw [eq] at mark; contradiction
      | cons c rest =>
        rw [eq] at mark
        obtain rfl := Option.some.inj mark
        exact ⟨rest, rfl⟩
    rw [eq, splitFirst_letter path rest]
    dsimp only
    rw [List.drop_left]

theorem Message.processRequestLine_requestLine :
    HttpRequest.empty.processRequestLine message.requestLine =
      (⟨message.method, message.version, message.path, message.query, fun _ => none⟩, true) := by
  have blank : (32 : Byte) ∉ ascii message.method.methodString := by
    cases message.method <;> decide
  have target : (32 : Byte) ∉ message.path ++ message.query := by
    rw [List.mem_append]
    rintro (path | query)
    · exact (message.path_plain 32 path).2.1 rfl
    · exact (message.query_plain 32 query).2 rfl
  have first := splitFirst_letter blank (message.path ++ message.query ++ 32 :: ascii message.version.text)
  have second := splitFirst_letter target (ascii message.version.text)
  rw [HttpRequest.processRequestLine, requestLine, first]
  dsimp only
  rw [setMethod_methodString _ message.method_ne, if_neg message.method_ne, second]
  dsimp only
  rw [message.setTarget_eq _ rfl, setVersion_text _ message.version_ne]
  rfl

/-! ## The fields -/

theorem PlainField.addHeader_eq {field : List Byte × List Byte} (plain : PlainField field) (request : HttpRequest) :
    request.addHeader field.1 (32 :: field.2) =
      { request with headers := Function.update request.headers field.1 (some field.2) } := by
  have front : (32 :: field.2).dropWhile (URL.isSpace ·) = field.2 := by
    rw [List.dropWhile_cons_of_pos (by decide)]
    cases eq : field.2 with
    | nil => rfl
    | cons c rest =>
      have space := plain.first c (by rw [eq]; rfl)
      exact List.dropWhile_cons_of_neg (by rw [space]; exact Bool.false_ne_true)
  have back : field.2.rdropWhile (URL.isSpace ·) = field.2 := by
    rw [List.rdropWhile_eq_self_iff]
    intro some_ space
    have clean := plain.last _ (Option.mem_def.mpr (List.getLast?_eq_getLast_of_ne_nil some_))
    rw [clean] at space
    contradiction
  rw [HttpRequest.addHeader, front, back]

theorem PlainField.noReturn {field : List Byte × List Byte} (plain : PlainField field) :
    (13 : Byte) ∉ Message.fieldLine field := by
  rw [Message.fieldLine, List.mem_append, List.mem_cons, List.mem_cons]
  rintro (name | impossible | impossible | value)
  · exact (plain.name 13 name).1 rfl
  · exact absurd impossible (by decide)
  · exact absurd impossible (by decide)
  · exact plain.value 13 value rfl

theorem PlainField.splitFirst_fieldLine {field : List Byte × List Byte} (plain : PlainField field) :
    splitFirst [58] (Message.fieldLine field) = some (field.1, 32 :: field.2) := by
  have colon : (58 : Byte) ∉ field.1 := fun inside => (plain.name 58 inside).2.1 rfl
  exact splitFirst_letter colon (32 :: field.2)

theorem findCRLF_of_notMem {line : List Byte} (noReturn : (13 : Byte) ∉ line) (rest : List Byte) :
    findCRLF (line ++ ([13, 10] ++ rest)) = some (line, rest) := splitFirst_of_notMem noReturn rest

theorem Message.head_cons (field : List Byte × List Byte) (fields : List (List Byte × List Byte)) :
    head (field :: fields) = fieldLine field ++ ([13, 10] ++ head fields) := by
  rw [head, List.flatMap_cons, List.append_assoc, List.append_assoc]
  rfl

theorem parseRequest_head {fields : List (List Byte × List Byte)} (plain : ∀ field ∈ fields, PlainField field)
    (request : HttpRequest) (more : List Byte) :
    (⟨.expectHeaders, request⟩ : HttpContext).parseRequest (Message.head fields ++ more) =
      some (true, ⟨.gotAll, { request with headers := Message.put request.headers fields }⟩, more) := by
  induction fields generalizing request with
  | nil =>
    have noReturn : (13 : Byte) ∉ ([] : List Byte) := List.not_mem_nil
    have empty : findCRLF (Message.head [] ++ more) = some ([], more) := findCRLF_of_notMem noReturn more
    rw [HttpContext.parseRequest_end empty rfl]
    rfl
  | cons field fields ih =>
    obtain ⟨here, later⟩ := List.forall_mem_cons.mp plain
    have found : findCRLF (Message.head (field :: fields) ++ more) =
        some (Message.fieldLine field, Message.head fields ++ more) := by
      rw [Message.head_cons, List.append_assoc, List.append_assoc]
      exact findCRLF_of_notMem here.noReturn _
    rw [HttpContext.parseRequest_field found here.splitFirst_fieldLine, here.addHeader_eq, ih later]
    rfl

/-! ## The whole request -/

theorem Message.noReturn : (13 : Byte) ∉ message.requestLine := by
  have method : (13 : Byte) ∉ ascii message.method.methodString := by
    cases message.method <;> decide
  have version : (13 : Byte) ∉ ascii message.version.text := by
    cases message.version <;> decide
  rw [requestLine, List.mem_append, List.mem_cons, List.mem_append, List.mem_append, List.mem_cons]
  rintro (inside | impossible | (path | query) | impossible | inside)
  · exact method inside
  · exact absurd impossible (by decide)
  · exact (message.path_plain 13 path).1 rfl
  · exact (message.query_plain 13 query).1 rfl
  · exact absurd impossible (by decide)
  · exact version inside

/-- What is written is read, and what stands behind it stays in the buffer. -/
theorem Message.parseRequest_text (more : List Byte) :
    HttpContext.fresh.parseRequest (message.text ++ more) = some (true, ⟨.gotAll, message.request⟩, more) := by
  have found : findCRLF (message.text ++ more) = some (message.requestLine, head message.fields ++ more) := by
    rw [text, List.append_assoc, List.append_assoc]
    exact findCRLF_of_notMem message.noReturn _
  have line := message.processRequestLine_requestLine
  rw [HttpContext.fresh, HttpContext.parseRequest_requestLine found, line, if_pos rfl, parseRequest_head message.fields_plain]
  rfl

end H5Server.Http
