import H5Server.Http.Requests
import H5Server.Lib.Runs

/-! # Connections of the order server (`OrderServer::onHttpMessage`, `asyncHttpHandler`)

A message that does not complete a request is answered like a mistake, and what was parsed of the request is dropped. What
is left in the buffer is not, so that a line that is no request line is met again with each message that follows.
-/

namespace H5Server.Http

open Codec Lib

/-- A connection, the requests that were processed on it, and how often it was told that its request is bad. -/
structure Connection where
  context : HttpContext
  buffer : List Byte
  /-- A task for the worker of the connection. -/
  pending : Bool
  closed : Bool
  badRequests : ℕ
  processed : List HttpRequest

inductive Event
  /-- Data that arrive, from an address that is allowed or not, before the entry of the connection has timed out or after. -/
  | onHttpMessage (data : List Byte) (allowed entry : Bool)
  | asyncHttpHandler

namespace Connection

variable (conn : Connection)

/-- Nothing, if the parser does not return. -/
def onHttpMessage (data : List Byte) (allowed entry : Bool) : Option Connection :=
  (conn.context.parseRequest (conn.buffer ++ data)).map fun (ok, context, buffer) =>
    if ok ∧ context.state = .gotAll then
      if !allowed then { conn with context := context, buffer := buffer, closed := true }
      else { conn with context := context, buffer := buffer, pending := entry }
    else { conn with context := .fresh, buffer := buffer, badRequests := conn.badRequests + 1 }

def asyncHttpHandler : Connection :=
  { conn with context := .fresh, pending := false, processed := conn.processed ++ [conn.context.request] }

def step : Event → Option Connection
  | .onHttpMessage data allowed entry => if conn.closed then none else conn.onHttpMessage data allowed entry
  | .asyncHttpHandler => if conn.pending then some conn.asyncHttpHandler else none

end Connection

variable {conn conn' : Connection}

/-- A connection that waits for a request. -/
structure Open (conn : Connection) : Prop where
  context : conn.context = .fresh
  pending : conn.pending = false
  closed : conn.closed = false

/-- A connection whose request is complete and waits for the worker. -/
structure Waiting (conn : Connection) (request : HttpRequest) : Prop where
  context : conn.context = ⟨.gotAll, request⟩
  buffer : conn.buffer = []
  pending : conn.pending = true
  closed : conn.closed = false

/-- A connection whose buffer starts with a line that is no request line. -/
structure Stuck (conn : Connection) : Prop where
  context : conn.context = .fresh
  pending : conn.pending = false
  closed : conn.closed = false
  mistake : ∃ line rest, findCRLF conn.buffer = some (line, rest) ∧ (HttpRequest.empty.processRequestLine line).2 = false

/-! ## Mistakes -/

theorem onHttpMessage_of_none {data : List Byte} (ready : conn.context = .fresh) (none_ : findCRLF (conn.buffer ++ data) = none)
    (allowed entry : Bool) : conn.onHttpMessage data allowed entry = some { conn with
      context := .fresh, buffer := conn.buffer ++ data, badRequests := conn.badRequests + 1 } := by
  have parsed : conn.context.parseRequest (conn.buffer ++ data) = some (true, .fresh, conn.buffer ++ data) := by
    rw [ready]
    exact HttpContext.parseRequest_of_none (.inl rfl) none_
  rw [Connection.onHttpMessage, parsed, Option.map_some]
  exact congrArg some (if_neg fun complete => by cases complete.2)

theorem onHttpMessage_of_mistake {data line rest : List Byte} (ready : conn.context = .fresh)
    (found : findCRLF (conn.buffer ++ data) = some (line, rest))
    (mistake : (HttpRequest.empty.processRequestLine line).2 = false) (allowed entry : Bool) :
    conn.onHttpMessage data allowed entry = some { conn with
      context := .fresh, buffer := conn.buffer ++ data, badRequests := conn.badRequests + 1 } := by
  have parsed : conn.context.parseRequest (conn.buffer ++ data) = some (false,
      ⟨.expectRequestLine, (HttpRequest.empty.processRequestLine line).1⟩, conn.buffer ++ data) := by
    rw [ready, HttpContext.fresh, HttpContext.parseRequest_requestLine found, if_neg (mistake ▸ Bool.false_ne_true)]
  rw [Connection.onHttpMessage, parsed, Option.map_some]
  exact congrArg some (if_neg fun complete => by cases complete.1)

theorem Stuck.step {event : Event} (stuck : Stuck conn) (taken : conn.step event = some conn') :
    Stuck conn' ∧ conn'.processed = conn.processed := by
  obtain ⟨line, rest, found, mistake⟩ := stuck.mistake
  cases event with
  | onHttpMessage data allowed entry =>
    rw [Connection.step] at taken
    split at taken
    · contradiction
    · have found' : findCRLF (conn.buffer ++ data) = some (line, rest ++ data) := splitFirst_append found data
      rw [onHttpMessage_of_mistake stuck.context found' mistake] at taken
      cases taken
      exact ⟨⟨rfl, stuck.pending, stuck.closed, line, rest ++ data, found', mistake⟩, rfl⟩
  | asyncHttpHandler =>
    rw [Connection.step, stuck.pending, if_neg Bool.false_ne_true] at taken
    contradiction

/-- After a mistake no request is processed any more, whatever arrives. -/
theorem stuck_of_run {events : List Event} (stuck : Stuck conn)
    (run : Lib.Run Connection.step (fun _ _ => True) conn events conn') :
    Stuck conn' ∧ conn'.processed = conn.processed := by
  refine @Lib.Run.invariant _ _ Connection.step _ _ _ _ (fun later => Stuck later ∧ later.processed = conn.processed)
    (fun s event s' inv _ taken => ?_) run ⟨stuck, rfl⟩
  obtain ⟨stuck', same⟩ := inv.1.step taken
  exact ⟨stuck', same.trans inv.2⟩

theorem stuck_of_run_blank :
    ∃ conn', Lib.Run Connection.step (fun _ _ => True) ⟨.fresh, [13, 10], false, false, 1, []⟩
      [.onHttpMessage (ascii "GET / HTTP/1.1\r\n\r\n") true true] conn' ∧ Stuck conn' ∧ conn'.processed = [] := by
  have stuck : Stuck ⟨.fresh, [13, 10], false, false, 1, []⟩ := ⟨rfl, rfl, rfl, [], [], rfl, rfl⟩
  have found : findCRLF ([13, 10] ++ ascii "GET / HTTP/1.1\r\n\r\n") = some ([], ascii "GET / HTTP/1.1\r\n\r\n") := rfl
  have taken : Connection.step ⟨.fresh, [13, 10], false, false, 1, []⟩
      (.onHttpMessage (ascii "GET / HTTP/1.1\r\n\r\n") true true) = some _ :=
    onHttpMessage_of_mistake rfl found rfl true true
  have run : Lib.Run Connection.step (fun _ _ => True) _ [_] _ := .cons trivial taken (.nil _)
  exact ⟨_, run, stuck_of_run stuck run⟩

/-! ## Pieces of a request -/

/-- A name with its colon is no method. -/
theorem setMethod_of_mem {m : List Byte} (colon : (58 : Byte) ∈ m) (request : HttpRequest) :
    (request.setMethod m).method = .invalid := by
  have other {text : List Byte} (absent : (58 : Byte) ∉ text) : m ≠ text := fun eq => absent (eq ▸ colon)
  rw [HttpRequest.setMethod]
  dsimp only
  rw [if_neg (other (by decide)), if_neg (other (by decide)), if_neg (other (by decide)), if_neg (other (by decide)),
    if_neg (other (by decide))]

/-- What follows a request line is no request line. -/
theorem exists_mistake {fields : List (List Byte × List Byte)} (plain : ∀ field ∈ fields, PlainField field) :
    ∃ line rest, findCRLF (Message.head fields) = some (line, rest) ∧
      (HttpRequest.empty.processRequestLine line).2 = false := by
  cases fields with
  | nil => exact ⟨[], [], rfl, rfl⟩
  | cons field fields =>
    have here := plain field List.mem_cons_self
    refine ⟨_, _, by rw [Message.head_cons]; exact findCRLF_of_notMem here.noReturn _, ?_⟩
    have blank : (32 : Byte) ∉ field.1 ++ [58] := by
      rw [List.mem_append, List.mem_singleton]
      rintro (name | impossible)
      · exact (here.name 32 name).2.2 rfl
      · exact absurd impossible (by decide)
    have cut : splitFirst [32] (Message.fieldLine field) = some (field.1 ++ [58], field.2) := by
      have eq : Message.fieldLine field = (field.1 ++ [58]) ++ 32 :: field.2 := by
        rw [Message.fieldLine, List.append_assoc]
        rfl
      rw [eq]
      exact splitFirst_letter blank field.2
    rw [HttpRequest.processRequestLine, cut]
    dsimp only
    rw [if_pos (setMethod_of_mem (List.mem_append_right _ (List.mem_singleton_self 58)) _)]

/-- Fields that are there in part only: those that are complete are parsed. -/
theorem parseRequest_part {fields : List (List Byte × List Byte)} (plain : ∀ field ∈ fields, PlainField field)
    (request : HttpRequest) {part later : List Byte} (whole : part ++ later = Message.head fields) (some_ : later ≠ []) :
    ∃ request' rest fields', (⟨.expectHeaders, request⟩ : HttpContext).parseRequest part =
        some (true, ⟨.expectHeaders, request'⟩, rest) ∧
      rest ++ later = Message.head fields' ∧ ∀ field ∈ fields', PlainField field := by
  induction fields generalizing request part with
  | nil =>
    have first : findCRLF (Message.head []) = some ([], []) := rfl
    have short : part.length < 2 := by
      have length := congrArg List.length whole
      have positive := List.length_pos_iff.mpr some_
      rw [List.length_append, show (Message.head []).length = 2 from rfl] at length
      omega
    have none_ : findCRLF part = none := splitFirst_of_short ⟨later, whole⟩ first short
    exact ⟨request, part, [], HttpContext.parseRequest_of_none (.inr rfl) none_, whole, plain⟩
  | cons field fields ih =>
    obtain ⟨here, others⟩ := List.forall_mem_cons.mp plain
    have first : findCRLF (Message.head (field :: fields)) = some (Message.fieldLine field, Message.head fields) := by
      rw [Message.head_cons]
      exact findCRLF_of_notMem here.noReturn _
    rcases Nat.lt_or_ge part.length ((Message.fieldLine field).length + 2) with short | long
    · have none_ : findCRLF part = none := splitFirst_of_short ⟨later, whole⟩ first short
      exact ⟨request, part, field :: fields, HttpContext.parseRequest_of_none (.inr rfl) none_, whole, plain⟩
    · obtain ⟨rest, rfl⟩ : Message.fieldLine field ++ [13, 10] <+: part := by
        refine List.prefix_of_prefix_length_le ?_ ⟨later, whole⟩ (by rw [List.length_append]; exact long)
        rw [Message.head_cons, ← List.append_assoc]
        exact List.prefix_append _ _
      have whole' : rest ++ later = Message.head fields := by
        rw [Message.head_cons, List.append_assoc, List.append_assoc, List.append_cancel_left_eq,
          List.append_cancel_left_eq] at whole
        exact whole
      obtain ⟨request', rest', fields', parsed, rest_eq, plain'⟩ :=
        ih others (request.addHeader field.1 (32 :: field.2)) whole'
      refine ⟨request', rest', fields', ?_, rest_eq, plain'⟩
      have found : findCRLF (Message.fieldLine field ++ [13, 10] ++ rest) = some (Message.fieldLine field, rest) := by
        rw [List.append_assoc]
        exact findCRLF_of_notMem here.noReturn rest
      rw [HttpContext.parseRequest_field found here.splitFirst_fieldLine, parsed]

/-- A piece that arrives from an address that is allowed. -/
def arrives (piece : List Byte) : Event := .onHttpMessage piece true true

theorem Open.step_arrives (open_ : Open conn) (piece : List Byte) :
    conn.step (arrives piece) = conn.onHttpMessage piece true true := if_neg (open_.closed ▸ Bool.false_ne_true)

/-- Where the request line is lost, what follows is met as a mistake in the end. -/
theorem replay_lost {fields : List (List Byte × List Byte)} (plain : ∀ field ∈ fields, PlainField field)
    (pieces : List (List Byte)) (open_ : Open conn) (whole : conn.buffer ++ pieces.flatten = Message.head fields) :
    ∃ conn', Lib.replay Connection.step conn (pieces.map arrives) = some conn' ∧ Stuck conn' ∧
      conn'.processed = conn.processed := by
  obtain ⟨line, rest, first, mistake⟩ := exists_mistake plain
  induction pieces generalizing conn with
  | nil =>
    rw [List.flatten_nil, List.append_nil] at whole
    exact ⟨conn, rfl, ⟨open_.context, open_.pending, open_.closed, line, rest, whole ▸ first, mistake⟩, rfl⟩
  | cons piece pieces ih =>
    rw [List.flatten_cons, ← List.append_assoc] at whole
    have taken : conn.step (arrives piece) = some { conn with
        context := .fresh, buffer := conn.buffer ++ piece, badRequests := conn.badRequests + 1 } := by
      rw [open_.step_arrives]
      cases found : findCRLF (conn.buffer ++ piece) with
      | none => exact onHttpMessage_of_none open_.context found true true
      | some parts =>
        have found' := splitFirst_append found pieces.flatten
        rw [whole] at found'
        obtain ⟨rfl, -⟩ := Prod.mk.inj (Option.some.inj (first.symm.trans found'))
        exact onHttpMessage_of_mistake open_.context found mistake true true
    obtain ⟨conn', done, stuck, same⟩ := @ih { conn with
      context := .fresh, buffer := conn.buffer ++ piece, badRequests := conn.badRequests + 1 }
      ⟨rfl, open_.pending, open_.closed⟩ whole
    exact ⟨conn', by rw [List.map_cons, Lib.replay, taken]; exact done, stuck, same⟩

variable (message : Message)

theorem Message.findCRLF_text : findCRLF message.text = some (message.requestLine, head message.fields) :=
  findCRLF_of_notMem message.noReturn _

/-- The pieces of a request. It is complete with the last piece, if the request line was not complete before. -/
theorem replay_pieces {pieces : List (List Byte)} (some_ : ∀ piece ∈ pieces, piece ≠ []) (open_ : Open conn)
    (whole : conn.buffer ++ pieces.flatten = message.text) (short : conn.buffer.length < message.requestLine.length + 2) :
    ∃ conn', Lib.replay Connection.step conn (pieces.map arrives) = some conn' ∧ conn'.processed = conn.processed ∧
      ((conn.buffer ++ pieces.dropLast.flatten).length < message.requestLine.length + 2 → Waiting conn' message.request) ∧
      (message.requestLine.length + 2 ≤ (conn.buffer ++ pieces.dropLast.flatten).length → Stuck conn') := by
  have first := message.findCRLF_text
  induction pieces generalizing conn with
  | nil =>
    rw [List.flatten_nil, List.append_nil] at whole
    have parts := length_of_splitFirst first
    rw [← whole] at parts
    exact absurd parts (by simp only [List.length_cons, List.length_nil]; omega)
  | cons piece pieces ih =>
    obtain ⟨-, later⟩ := List.forall_mem_cons.mp some_
    rcases List.eq_nil_or_concat' pieces with rfl | ⟨others, last, rfl⟩
    · -- The last piece completes the request.
      rw [List.flatten_singleton] at whole
      have parsed := message.parseRequest_text []
      rw [List.append_nil, ← whole, ← open_.context] at parsed
      have taken : conn.step (arrives piece) = some { conn with
          context := ⟨.gotAll, message.request⟩, buffer := [], pending := true } := by
        rw [open_.step_arrives, Connection.onHttpMessage, parsed, Option.map_some]
        rfl
      refine ⟨{ conn with context := ⟨.gotAll, message.request⟩, buffer := [], pending := true },
        by rw [List.map_singleton, Lib.replay, taken]; rfl, rfl, fun _ => ⟨rfl, rfl, rfl, open_.closed⟩, ?_⟩
      rw [List.dropLast_singleton, List.flatten_nil, List.append_nil]
      exact fun long => absurd short long.not_gt
    · have missing : (others ++ [last]).flatten ≠ [] := by
        rw [List.flatten_append, List.flatten_singleton]
        exact fun empty => later last List.mem_concat_self (List.append_eq_nil_iff.mp empty).2
      have butLast : (piece :: (others ++ [last])).dropLast = piece :: others := by
        rw [← List.cons_append, List.dropLast_concat]
      rw [List.flatten_cons, ← List.append_assoc] at whole
      rw [butLast, List.flatten_cons, ← List.append_assoc]
      rcases Nat.lt_or_ge (conn.buffer ++ piece).length (message.requestLine.length + 2) with short' | long
      · -- The request line is still not complete.
        have none_ : findCRLF (conn.buffer ++ piece) = none := splitFirst_of_short ⟨_, whole⟩ first short'
        have taken : conn.step (arrives piece) = some { conn with
            context := .fresh, buffer := conn.buffer ++ piece, badRequests := conn.badRequests + 1 } := by
          rw [open_.step_arrives]
          exact onHttpMessage_of_none open_.context none_ true true
        obtain ⟨conn', done, same, complete, lost⟩ := @ih { conn with
          context := .fresh, buffer := conn.buffer ++ piece, badRequests := conn.badRequests + 1 } later
          ⟨rfl, open_.pending, open_.closed⟩ whole short'
        rw [List.dropLast_concat] at complete lost
        exact ⟨conn', by rw [List.map_cons, Lib.replay, taken]; exact done, same, complete, lost⟩
      · -- The request line is parsed and dropped.
        obtain ⟨part, eq⟩ : message.requestLine ++ [13, 10] <+: conn.buffer ++ piece := by
          refine List.prefix_of_prefix_length_le ?_ ⟨_, whole⟩ (by rw [List.length_append]; exact long)
          rw [Message.text, ← List.append_assoc]
          exact List.prefix_append _ _
        have whole' : part ++ (others ++ [last]).flatten = Message.head message.fields := by
          rw [← eq, Message.text, List.append_assoc, List.append_assoc, List.append_cancel_left_eq,
            List.append_cancel_left_eq] at whole
          exact whole
        obtain ⟨request', rest, fields', parsed, rest_eq, plain⟩ := parseRequest_part message.fields_plain
          ⟨message.method, message.version, message.path, message.query, fun _ => none⟩ whole' missing
        have found : findCRLF (conn.buffer ++ piece) = some (message.requestLine, part) := by
          rw [← eq, List.append_assoc]
          exact findCRLF_of_notMem message.noReturn part
        have line := message.processRequestLine_requestLine
        have taken : conn.step (arrives piece) = some { conn with
            context := .fresh, buffer := rest, badRequests := conn.badRequests + 1 } := by
          rw [open_.step_arrives, Connection.onHttpMessage, open_.context, HttpContext.fresh,
            HttpContext.parseRequest_requestLine found, line, if_pos rfl, parsed, Option.map_some]
          exact congrArg some (if_neg fun complete => by cases complete.2)
        obtain ⟨conn', done, stuck, same⟩ := @replay_lost { conn with
          context := .fresh, buffer := rest, badRequests := conn.badRequests + 1 } fields' plain (others ++ [last])
          ⟨rfl, open_.pending, open_.closed⟩ rest_eq
        refine ⟨conn', by rw [List.map_cons, Lib.replay, taken]; exact done, same, fun short' => ?_, fun _ => stuck⟩
        rw [List.length_append] at short'
        exact absurd long (by omega)

/-! ## Requests one after the other -/

theorem Stuck.replay (stuck : Stuck conn) (pieces : List (List Byte)) :
    ∃ conn', Lib.replay Connection.step conn (pieces.map arrives) = some conn' ∧ Stuck conn' ∧
      conn'.processed = conn.processed := by
  induction pieces generalizing conn with
  | nil => exact ⟨conn, rfl, stuck, rfl⟩
  | cons piece pieces ih =>
    obtain ⟨line, rest, found, mistake⟩ := stuck.mistake
    have taken : conn.step (arrives piece) = some _ :=
      (if_neg (stuck.closed ▸ Bool.false_ne_true)).trans
        (onHttpMessage_of_mistake stuck.context (splitFirst_append found piece) mistake true true)
    obtain ⟨stuck', same⟩ := stuck.step taken
    obtain ⟨conn', done, stuck'', same'⟩ := ih stuck'
    exact ⟨conn', by rw [List.map_cons, Lib.replay, taken]; exact done, stuck'', same'.trans same⟩

/-- A request in the pieces in which it arrives. -/
structure Sent where
  message : Message
  pieces : List (List Byte)
  pieces_ne : ∀ piece ∈ pieces, piece ≠ []
  whole : pieces.flatten = message.text

/-- Only the last piece goes beyond the request line. -/
def Sent.Together (sent : Sent) : Prop := sent.pieces.dropLast.flatten.length < sent.message.requestLine.length + 2

instance (sent : Sent) : Decidable sent.Together := Nat.decLt _ _

/-- A client sends its next request when it was answered. -/
def exchange (conn : Connection) (sent : Sent) : Option Connection :=
  (Lib.replay Connection.step conn (sent.pieces.map arrives)).map fun conn' =>
    if conn'.pending then conn'.asyncHttpHandler else conn'

theorem Stuck.exchange (stuck : Stuck conn) (sent : Sent) :
    ∃ conn', Http.exchange conn sent = some conn' ∧ Stuck conn' ∧ conn'.processed = conn.processed := by
  obtain ⟨conn', done, stuck', same⟩ := stuck.replay sent.pieces
  refine ⟨conn', ?_, stuck', same⟩
  rw [Http.exchange, done, Option.map_some, if_neg (stuck'.pending ▸ Bool.false_ne_true)]

theorem Open.exchange (open_ : Open conn) (empty : conn.buffer = []) (sent : Sent) :
    ∃ conn', Http.exchange conn sent = some conn' ∧
      (sent.Together → Open conn' ∧ conn'.buffer = [] ∧ conn'.processed = conn.processed ++ [sent.message.request]) ∧
      (¬sent.Together → Stuck conn' ∧ conn'.processed = conn.processed) := by
  have whole : conn.buffer ++ sent.pieces.flatten = sent.message.text := by rw [empty, sent.whole, List.nil_append]
  have short : conn.buffer.length < sent.message.requestLine.length + 2 := by
    rw [empty]
    exact Nat.succ_pos _
  obtain ⟨conn', done, same, complete, lost⟩ := replay_pieces sent.message sent.pieces_ne open_ whole short
  rw [empty, List.nil_append] at complete lost
  rw [Http.exchange, done, Option.map_some]
  refine ⟨_, rfl, fun together => ?_, fun apart => ?_⟩
  · obtain ⟨context, buffer, pending, closed⟩ := complete together
    rw [if_pos pending]
    refine ⟨⟨rfl, rfl, closed⟩, buffer, ?_⟩
    rw [Connection.asyncHttpHandler, same, context]
  · have stuck := lost (Nat.le_of_not_lt apart)
    rw [if_neg (stuck.pending ▸ Bool.false_ne_true)]
    exact ⟨stuck, same⟩

theorem Stuck.exchanges (stuck : Stuck conn) (requests : List Sent) :
    ∃ conn', requests.foldlM Http.exchange conn = some conn' ∧ conn'.processed = conn.processed := by
  induction requests generalizing conn with
  | nil => exact ⟨conn, rfl, rfl⟩
  | cons sent requests ih =>
    obtain ⟨conn₁, taken, stuck₁, same⟩ := stuck.exchange sent
    obtain ⟨conn', done, same'⟩ := ih stuck₁
    refine ⟨conn', ?_, same'.trans same⟩
    rw [List.foldlM_cons, taken]
    exact done

/-- A request for the address of an agent. -/
def getAgent : Message where
  method := .get
  path := ascii "/GameHandle"
  query := ascii "?agentid=1"
  version := .http11
  fields := [(ascii "Host", ascii "api"), (ascii "Accept", ascii "*/*")]
  method_ne := by decide
  version_ne := by decide
  path_plain := by decide
  query_plain := by decide
  query_mark := by decide
  fields_plain := by
    intro field inside
    rcases List.mem_pair.mp inside with rfl | rfl
    · exact ⟨by decide, by decide, by decide, by decide⟩
    · exact ⟨by decide, by decide, by decide, by decide⟩

/-- The request cut into two pieces. -/
def getAgentCut (cut : ℕ) (inside : 0 < cut ∧ cut < getAgent.text.length) : Sent where
  message := getAgent
  pieces := [getAgent.text.take cut, getAgent.text.drop cut]
  pieces_ne := by
    intro piece present
    rcases List.mem_pair.mp present with rfl | rfl
    · exact List.ne_nil_of_length_pos (by rw [List.length_take]; omega)
    · exact List.ne_nil_of_length_pos (by rw [List.length_drop]; omega)
  whole := by rw [List.flatten_cons, List.flatten_singleton, List.take_append_drop]

end H5Server.Http
