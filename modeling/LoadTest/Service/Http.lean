import LoadTest.Control.ConfigJson
import LoadTest.Control.Basic
import LoadTest.Log
import LoadTest.Service.MediaType

/-!
# The HTTP interface

A control of runs, reached by requests: `POST /run` with a JSON body, `POST /stop`, and `GET
/status`.
-/

namespace LoadTest

variable {κ : Type}

structure Request where
  method : String
  /-- What the request is made to: a path, or a full address. -/
  target : String
  contentType : Option String := none
  body : String := ""
  deriving DecidableEq, Repr

inductive ResponseBody where
  | text (s : String)
  /-- The request is refused before its body has been made sense of. -/
  | rejected
  deriving DecidableEq, Repr

structure Response where
  status : Nat
  body : ResponseBody := .text ""
  deriving DecidableEq, Repr

/-- The status code of a refused request. -/
def ControlError.httpStatus : ControlError → Nat
  | .alreadyRunning => 409
  | .noActiveRun => 404
  | .behavior (.notRegistered _) => 404
  | .compile _ => 400
  | .behavior _ => 400
  | .poisonedData => 500
  | .execution _ => 500

/-- The answer to a request that the control refuses. -/
def Response.refusal (e : ControlError) : Response × List Message :=
  (⟨e.httpStatus, .text e.message⟩, [⟨.warn, s!"Rejected control request: {e.message}"⟩])

def startedJson (runId : String) : String :=
  String.ofList ('\x7b' :: jsonText "run_id" ++ ':' :: jsonText runId ++ ['\x7d'])

def RunStatus.json (s : RunStatus) : String :=
  String.ofList <|
    '\x7b' :: jsonText "active" ++ ':' :: (toString s.active).toList
      ++ ',' :: jsonText "run_id" ++ ':' :: jsonOptionalText s.runId
      ++ ',' :: jsonText "behavior" ++ ':' :: jsonOptionalText s.behavior
      ++ ',' :: jsonText "live_users" ++ ':' :: (toString s.liveUsers).toList
      ++ ',' :: jsonText "stop_requested" ++ ':' :: (toString s.stopRequested).toList ++ ['\x7d']

/-- What a request asks for. -/
inductive Route where
  | run
  | stop
  /-- With or without the body of the answer. -/
  | status (withBody : Bool)
  | wrongMethod
  | unknown
  deriving DecidableEq, Repr

/-- A character that may stand in the scheme of an address. -/
def isSchemeChar (c : Char) : Bool := c.isAlphanum || c ∈ ['+', '-', '.']

/-- A target from its path on. In a full address the path comes after the scheme and the authority.
-/
def targetFromPath (target : List Char) : List Char :=
  match target.dropWhile isSchemeChar with
  | ':' :: '/' :: '/' :: rest => rest.dropWhile fun c => c ∉ ['/', '?', '#']
  | _ => target

/-- The path of a request, without a query or a fragment behind it. -/
def Request.path (r : Request) : String :=
  String.ofList ((targetFromPath r.target.toList).takeWhile fun c => c ∉ ['?', '#'])

def Request.route (r : Request) : Route :=
  let path := r.path
  if path = "/run" then if r.method = "POST" then .run else .wrongMethod
  else if path = "/stop" then if r.method = "POST" then .stop else .wrongMethod
  else if path = "/status" then
    if r.method = "GET" then .status true
    else if r.method = "HEAD" then .status false
    else .wrongMethod
  else .unknown

/-- The number of bytes that a body may have: two mebibytes. -/
def bodyLimit : Nat := 2097152

/-- The configuration in the body of a request, or the status with which the request is refused.
What follows the configuration does not matter. -/
def Request.config (r : Request) : Except Nat RunConfig :=
  if !r.contentType.any announcesJson then .error 415
  else if bodyLimit < r.body.utf8ByteSize then .error 413
  else
    match RunConfig.read r.body.toList with
    | .ok (config, _) => .ok config
    | .error .unfit => .error 422
    | .error _ => .error 400

def Control.respond (c : Control κ) (r : Request) (k : κ) : (Response × List Message) × κ :=
  match r.route with
  | .unknown => ((⟨404, .text ""⟩, []), k)
  | .wrongMethod => ((⟨405, .text ""⟩, []), k)
  | .run =>
    match r.config with
    | .error status => ((⟨status, .rejected⟩, []), k)
    | .ok config =>
      match c.start config k with
      | (.ok runId, k) => ((⟨200, .text (startedJson runId)⟩, []), k)
      | (.error e, k) => (Response.refusal e, k)
  | .stop =>
    match c.stop k with
    | (.ok (), k) => ((⟨200, .text ""⟩, []), k)
    | (.error e, k) => (Response.refusal e, k)
  | .status withBody =>
    let shown : Response × List Message → Response × List Message
      | (response, messages) =>
        (if withBody then response else { response with body := .text "" }, messages)
    match c.status k with
    | (.ok s, k) => (shown (⟨200, .text s.json⟩, []), k)
    | (.error e, k) => (shown (Response.refusal e), k)

end LoadTest
