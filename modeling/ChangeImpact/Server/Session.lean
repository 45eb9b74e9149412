import ChangeImpact.Server.Frame
import ChangeImpact.Server.Tools

/-!
# Sessions

A request carries an id and is answered by one reply with the same id, a result or an error; a
message without an id is a notification and has no reply. An unknown method and an unknown tool
are errors with codes of their own, and a tool that fails gives a result that says so. A few
messages the server does not survive: those of the wrong shape, and those whose tool fails
without being told.
-/

namespace ChangeImpact.Server

def version : String := "0.1.0"

inductive Breakdown where
  | notAnObject
  | notAName
  | tool (e : ToolFault)
  | tooDeep

inductive RpcError where
  | unknownMethod (name : Json)
  | unknownTool (name : Json)

namespace RpcError

def code : RpcError → Int
  | unknownMethod _ => -32601
  | unknownTool _ => -32602

def message : RpcError → LooseText
  | unknownMethod name => .ofString "Unknown method: " ++ name.shown
  | unknownTool name => .ofString "Unknown tool: " ++ name.shown

end RpcError

abbrev Outcome := Except RpcError Json

abbrev Serving := ExceptT Breakdown Asking

def field (v : Json) (name : String) : Except Breakdown (Option Json) :=
  match v with
  | .object fields => .ok (Json.Fields.named? fields name)
  | _ => .error .notAnObject

def orEmpty (v : Option Json) : Json :=
  match v with
  | some v => if isFilled v then v else .object []
  | none => .object []

def asName (v : Json) : Except Breakdown Json :=
  match v with
  | .list _ => .error .notAName
  | .object _ => .error .notAName
  | v => .ok v

def initialized : Json :=
  .object [
    ("protocolVersion", .text "2024-11-05"),
    ("capabilities", .object [("tools", .object [("listChanged", .bool false)])]),
    ("serverInfo", .object [("name", .text "impactlens"), ("version", .text version)])]

def introduce (params : Json) : Except Breakdown Json := do
  let client := orEmpty (← field params "clientInfo")
  let _ ← field client "name"
  pure initialized

def toolResult (text : LooseText) (failed : Bool) : Json :=
  .object [
    ("content", .list [.object [("type", .text "text"), ("text", .text text)]]),
    ("isError", .bool failed)]

def callTool (host : Host) (params : Json) : Serving Outcome := do
  let name ← asName ((← field params "name").getD (.text ""))
  match name.string?.bind tool? with
  | none => pure (.error (.unknownTool name))
  | some tool =>
    match ← (tool host (orEmpty (← field params "arguments"))).run with
    | .ok text => pure (.ok (toolResult text false))
    | .error e =>
      if e.isTold then pure (.ok (toolResult (.ofString "Error: " ++ e.message) true))
      else throw (.tool e)

def dispatch (host : Host) (method params : Json) : Serving Outcome := do
  let method ← asName method
  match method.string? with
  | some "initialize" => .ok <$> introduce params
  | some "tools/list" => pure (.ok (.object [("tools", listings)]))
  | some "tools/call" => callTool host params
  | some "ping" => pure (.ok (.object []))
  | _ => pure (.error (.unknownMethod method))

def notice (method params : Json) : Except Breakdown Unit :=
  match method.string? with
  | some "notifications/cancelled" => (field params "requestId").map fun _ => ()
  | _ => .ok ()

def reply (id : Json) (outcome : Outcome) : Json :=
  let field : LooseText × Json := match outcome with
    | .ok result => ("result", result)
    | .error e => ("error", .object [("code", .int e.code), ("message", .text e.message)])
  .object [("jsonrpc", .text "2.0"), ("id", id), field]

def handle (host : Host) (message : Json) : Serving (Option Json) := do
  let method := (← field message "method").getD (.text "")
  let params := orEmpty (← field message "params")
  match (← field message "id").getD .null with
  | .null =>
    notice method params
    pure none
  | id => pure (some (reply id (← dispatch host method params)))

def handleAll (host : Host) : List Json → Asking (List Json × Option Breakdown)
  | [] => pure ([], none)
  | m :: r => do
    match ← (handle host m).run with
    | .error e => pure ([], some e)
    | .ok answered =>
      let (replies, ending) ← handleAll host r
      pure (answered.toList ++ replies, ending)

def serve (host : Host) (input : Text.Utf8.Bytes) :
    Asking (Text.Utf8.Bytes × Option Breakdown) := do
  let (messages, tooDeep) := readMessages host.repository.machine.nesting input
  let (replies, ending) ← handleAll host messages
  pure (replies.flatMap frame, ending.or (if tooDeep then some .tooDeep else none))

end ChangeImpact.Server
