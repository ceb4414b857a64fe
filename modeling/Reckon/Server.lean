import Reckon.About
import Reckon.Interpreter
import Reckon.Json.Reader
import Reckon.Server.Request
import Reckon.Text.Blank
import Reckon.Text.Lines

/-!
# The tool server

One tool, `calculate`, is offered over JSON-RPC, one message per line. Every call runs against the
same interpreter, so variables last as long as the server does. A failing calculation is a result
of the tool; only a message that is no proper call is answered by an error.
-/

namespace Reckon.Server

/-- What is wrong with a message. -/
inductive Refusal where
  | notJson (cause : Json.SyntaxError)
  | notRequest (cause : ShapeError)
  | unsupportedVersion (version : String)
  | unknownMethod (method : String)
  | badParameters (cause : ShapeError)
  | unknownTool (tool : String)
  | missingExpression

namespace Refusal

def code : Refusal → Int
  | notJson _ => -32700
  | notRequest _ | unsupportedVersion _ => -32600
  | unknownMethod _ => -32601
  | badParameters _ | unknownTool _ | missingExpression => -32602

def message : Refusal → String
  | notJson cause => "Parse error: " ++ cause.message
  | notRequest cause => "Invalid request: " ++ cause.message
  | unsupportedVersion version =>
    "Invalid request: unsupported jsonrpc version " ++ Quoted.quote version
  | unknownMethod method => "Method not found: " ++ method
  | badParameters cause => "Invalid params: " ++ cause.message
  | unknownTool tool => "Unknown tool: " ++ tool
  | missingExpression => "Missing argument: expression"

end Refusal

/-- An answer: a result or a refusal, with the identifier of the message. -/
structure Response where
  id : Json
  outcome : Except Refusal Json

/-- The answer as it is sent. -/
def Response.toJson (r : Response) : Json :=
  let outcome := match r.outcome with
    | .ok result => ("result", result)
    | .error refusal =>
      ("error", .object [("code", .int refusal.code), ("message", .string refusal.message)])
  .object [("jsonrpc", .string "2.0"), ("id", r.id), outcome]

/-! ## Fixed results -/

/-- The name of the tool. -/
def toolName : String := "calculate"

/-- What the server says about itself. -/
def introduction : Json :=
  .object
    [("capabilities", .object [("tools", .object [])]),
      ("protocolVersion", .string "2024-11-05"),
      ("serverInfo",
        .object [("name", .string About.name), ("version", .string About.version)])]

/-- What the server says about its tool. -/
def toolListing : Json :=
  let expression : Json := .object
    [("description",
        .string "Expression to evaluate (e.g. '2 + 3 * 4', 'x = 5', 'render(1 + 2)')"),
      ("type", .string "string")]
  .object
    [("tools", .array
      [.object
        [("description",
            .string "Evaluates integer expressions with variables, factorial and render(...)"),
          ("inputSchema", .object
            [("properties", .object [("expression", expression)]),
              ("required", .array [.string "expression"]),
              ("type", .string "object")]),
          ("name", .string toolName)]])]

/-- The result of a tool call. -/
def toolResult (text : String) (isError : Bool) : Json :=
  .object
    [("content", .array [.object [("text", .string text), ("type", .string "text")]]),
      ("isError", .bool isError)]

/-! ## Messages -/

/-- What the tool says about a run. -/
def calculation : Except Failure Value → Json
  | .ok value => toolResult value.text false
  | .error failure => toolResult ("Error evaluating expression: " ++ failure.message) true

/-- Carries out a tool call. -/
def call (i : Interpreter) (params : Json) : Except Refusal Json × Interpreter :=
  match Call.decode params with
  | .error cause => (.error (.badParameters cause), i)
  | .ok c =>
    if c.tool ≠ toolName then (.error (.unknownTool c.tool), i)
    else
      match c.arguments.expression? with
      | none => (.error .missingExpression, i)
      | some expression =>
        let (result, i) := i.run expression
        (.ok (calculation result), i)

/-- Carries out a request that asks for an answer. -/
def serveMethod (i : Interpreter) (method : String) (params : Json) :
    Except Refusal Json × Interpreter :=
  match method with
  | "initialize" => (.ok introduction, i)
  | "ping" => (.ok (.object []), i)
  | "tools/list" => (.ok toolListing, i)
  | "tools/call" => call i params
  | method => (.error (.unknownMethod method), i)

/-- Handles a request. One of another protocol version is refused, whether it asks for an answer or
not. -/
def handleRequest (i : Interpreter) (r : Request) : Option Response × Interpreter :=
  if r.version ≠ "2.0" then
    (some ⟨r.id?.getD .null, .error (.unsupportedVersion r.version)⟩, i)
  else
    match r.id? with
    | none => (none, i)
    | some id =>
      let (outcome, i) := serveMethod i r.method r.params
      (some ⟨id, outcome⟩, i)

/-- Handles one line. A message that is an object and no request is refused under its identifier. -/
def handle (i : Interpreter) (line : String) : Option Response × Interpreter :=
  match Json.parse line with
  | .error cause => (some ⟨.null, .error (.notJson cause)⟩, i)
  | .ok raw =>
    match Request.decode raw with
    | .error cause => (some ⟨(raw.member? "id").getD .null, .error (.notRequest cause)⟩, i)
    | .ok request => handleRequest i request

/-! ## Streams -/

/-- What serving a stream of lines leads to: the answers, the interpreter afterwards, and whether
every line was text. -/
structure Served where
  responses : List Response
  interpreter : Interpreter
  complete : Bool

/-- Serves lines in turn. Blank lines are skipped, and a line that is not UTF-8 ends the service. -/
def serveLines (i : Interpreter) : List (List UInt8) → Served
  | [] => ⟨[], i, true⟩
  | bytes :: rest =>
    match Lines.text? bytes with
    | none => ⟨[], i, false⟩
    | some line =>
      if Blank.isBlankText line then serveLines i rest
      else
        let (response?, i) := handle i line
        let served := serveLines i rest
        { served with responses := response?.toList ++ served.responses }

/-- Serves a stream of bytes. -/
def serve (i : Interpreter) (bytes : List UInt8) : Served :=
  serveLines i (Lines.split bytes)

/-- The line that an answer is sent as. -/
def Response.line (r : Response) : String :=
  r.toJson.compact ++ "\n"

/-- The text that is sent while a stream is served. -/
def Served.output (s : Served) : String :=
  String.join (s.responses.map Response.line)

end Reckon.Server
