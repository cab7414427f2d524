import Hedge.Ai.ShadowMode
import Hedge.Common.Chase
import Hedge.Common.Json
import Hedge.Common.Retry
import Mathlib.Algebra.Order.Ring.Rat
import Mathlib.Data.List.AList
import Mathlib.Data.List.DropRight

/-!
# The streaming client of the model daemons

Reference: `hedge_warm_ai/ollama_client/client.py`, `endpoint.py`, `errors.py`, `publisher.py`,
`hedge_warm_ai/schemas/ai_ollama_degraded.py`.

A request goes to the daemon of its role, is repeated there a bounded number of times, and is then
handed to the fallback of the role. Chunks are given to the caller as they arrive, also those of an
attempt that fails later. What the daemons do is an argument: the reply to each attempt at each role,
with the lines of a body and the fault that breaks it off, if one does.
-/

namespace Hedge.Ai.Ollama

open Hedge.Common

abbrev OllamaRoleKey := String

/-! ## Endpoints and the client -/

/-- `OllamaModelEndpoint`, with the checks of `__post_init__`. -/
structure OllamaModelEndpoint where
  baseUrl : String
  model : String
  timeoutS : Option ℚ
  connectTimeoutS : ℚ
  maxRetries : ℕ
  baseUrl_ne : baseUrl ≠ ""
  model_ne : model ≠ ""
  timeoutS_pos : ∀ t, timeoutS = some t → 0 < t
  connectTimeoutS_pos : 0 < connectTimeoutS

/-- `generate_url`. -/
def OllamaModelEndpoint.generateUrl (ep : OllamaModelEndpoint) : String :=
  String.ofList (ep.baseUrl.toList.rdropWhile (· = '/')) ++ "/api/generate"

/-- `OllamaClient`, with the checks of its constructor and of `_validate_chain`. -/
structure OllamaClient where
  endpoints : AList fun _ : OllamaRoleKey => OllamaModelEndpoint
  fallbackChain : AList fun _ : OllamaRoleKey => OllamaRoleKey
  endpoints_ne : endpoints.keys ≠ []
  chain_registered : ∀ src dst, fallbackChain.lookup src = some dst →
    src ∈ endpoints ∧ dst ∈ endpoints

/-- The endpoints of `default_endpoints`: one daemon behind four budgets. -/
def defaultEndpoint (timeoutS : ℚ) (h : 0 < timeoutS) : OllamaModelEndpoint where
  baseUrl := "http://host.docker.internal:11434"
  model := "gemma4:31b-cloud"
  timeoutS := some timeoutS
  connectTimeoutS := 2
  maxRetries := 0
  baseUrl_ne := by decide
  model_ne := by decide
  timeoutS_pos := by
    rintro t ⟨⟩
    exact h
  connectTimeoutS_pos := by decide

/-- `default_endpoints`. -/
def defaultEndpoints : AList fun _ : OllamaRoleKey => OllamaModelEndpoint where
  entries := [⟨"qwen", defaultEndpoint 30 (by decide)⟩, ⟨"mistral", defaultEndpoint 10 (by decide)⟩,
    ⟨"deepseek", defaultEndpoint 60 (by decide)⟩, ⟨"phi", defaultEndpoint 5 (by decide)⟩]
  nodupKeys := by
    rw [List.NodupKeys]
    decide

/-- `default_fallback_chain`. -/
def defaultFallbackChain : AList fun _ : OllamaRoleKey => OllamaRoleKey where
  entries := [⟨"qwen", "deepseek"⟩, ⟨"deepseek", "mistral"⟩, ⟨"mistral", "phi"⟩]
  nodupKeys := by
    rw [List.NodupKeys]
    decide

/-- The client that is built without arguments. -/
def OllamaClient.standard : OllamaClient where
  endpoints := defaultEndpoints
  fallbackChain := defaultFallbackChain
  endpoints_ne := by decide
  chain_registered := by
    intro src dst h
    have hmem : (⟨src, dst⟩ : Sigma fun _ : OllamaRoleKey => OllamaRoleKey) ∈
        defaultFallbackChain.entries := AList.mem_lookup_iff.mp h
    have hall : ∀ e ∈ defaultFallbackChain.entries,
        e.1 ∈ defaultEndpoints ∧ e.2 ∈ defaultEndpoints := by decide
    exact hall _ hmem

/-! ## What happens outside the client -/

/-- An exception of the HTTP library: a timeout, a network fault, or one the client lets through. -/
inductive Fault where
  | timeout
  | network
  | other
deriving DecidableEq

/-- What one attempt meets: no response, or a status with the lines of the body up to its end or to
the fault that breaks it off. -/
inductive Reply where
  | refused (fault : Fault)
  | answered (status : ℕ) (lines : List String) (broken : Option Fault)

/-- The replies to the attempts at each role, the wall clock when a role is given up, and the two
library functions a line goes through: `json.loads` (`none` for `JSONDecodeError`) and `str`. -/
structure Outside where
  reply : OllamaRoleKey → ℕ → Reply
  wallClockNs : OllamaRoleKey → ℕ
  loads : String → Option Json
  str : Json → String

/-! ## Effects and errors -/

/-- The arguments of one HTTP request. -/
structure Post where
  url : String
  body : AList fun _ : String => Json
  timeoutS : Option ℚ
  connectS : ℚ

/-- `OllamaResponseChunk`. -/
structure OllamaResponseChunk where
  role : OllamaRoleKey
  model : String
  text : String
  done : Bool
  metrics : Option (List (String × Json))

/-- The reasons the client gives, of those the schema lists. -/
inductive DegradedReason where
  | timeout
  | unresponsive
  | crashed
deriving DecidableEq

/-- `OllamaDegraded`, with the bounds of its schema. -/
structure OllamaDegraded where
  model : String
  fallbackModel : String
  reason : DegradedReason
  tsNs : ℕ
  model_bounds : 1 ≤ model.length ∧ model.length ≤ 128
  fallbackModel_bounds : 1 ≤ fallbackModel.length ∧ fallbackModel.length ≤ 128

/-- The kinds of `OllamaClientError` that an attempt ends with. -/
inductive ErrorKind where
  | http (statusCode : ℕ)
  | timeout
  | connect
deriving DecidableEq

/-- An `OllamaClientError` with the role and the model it names. -/
structure OllamaClientError where
  kind : ErrorKind
  role : OllamaRoleKey
  model : String
deriving DecidableEq

/-- What a request does that is seen from outside, in order. -/
inductive Effect where
  | post (role : OllamaRoleKey) (p : Post)
  | chunk (c : OllamaResponseChunk)
  | degraded (event : OllamaDegraded)

/-- How `stream_generate` ends. -/
inductive Outcome where
  | complete
  | rejected (e : OllamaClientError)
  | raised
  | exhausted (role : OllamaRoleKey) (model : String)
      (failures : List (OllamaRoleKey × OllamaClientError))
  | unknownRole
  | reservedKey (key : String)

/-! ## One attempt -/

/-- The keys that the last chunk reports. -/
def metricKeys : List String :=
  ["total_duration", "load_duration", "prompt_eval_count", "prompt_eval_duration", "eval_count",
    "eval_duration", "context", "done_reason"]

/-- The chunk of a line that is a JSON object. -/
def chunkOf (w : Outside) (role : OllamaRoleKey) (ep : OllamaModelEndpoint) (obj : Json) :
    OllamaResponseChunk :=
  let done := (obj.get "done").elim false truthy
  { role := role
    model := ep.model
    text := match obj.get "response" with
      | some (.str s) => s
      | some v => if truthy v then w.str v else ""
      | none => ""
    done := done
    metrics :=
      if done then some (metricKeys.filterMap fun k => (obj.get k).map fun v => (k, v)) else none }

/-- Where reading the lines stops before their end: a line that is not JSON, or JSON without `get`. -/
inductive BadLine where
  | notJson
  | notObject
deriving DecidableEq

/-- The loop over the lines of a body. -/
def readLines (w : Outside) (role : OllamaRoleKey) (ep : OllamaModelEndpoint) :
    List String → List OllamaResponseChunk × Option BadLine
  | [] => ([], none)
  | line :: lines =>
    if line = "" then readLines w role ep lines
    else match w.loads line with
      | none => ([], some .notJson)
      | some (.obj fields) =>
        let (cs, bad) := readLines w role ep lines
        (chunkOf w role ep (.obj fields) :: cs, bad)
      | some _ => ([], some .notObject)

/-- How an attempt ends, and how all attempts at an endpoint do. -/
inductive StreamEnd where
  | complete
  | failed (kind : ErrorKind)
  | rejected (kind : ErrorKind)
  | raised
deriving DecidableEq

/-- The handler of `OllamaHttpError`, by `is_unresponsive`. -/
def httpEnd (statusCode : ℕ) : StreamEnd :=
  if 500 ≤ statusCode ∧ statusCode < 600 then .failed (.http statusCode)
  else .rejected (.http statusCode)

/-- The handlers of the library's exceptions. -/
def faultEnd : Fault → StreamEnd
  | .timeout => .failed .timeout
  | .network => .failed .connect
  | .other => .raised

/-- The body of the retry loop of `_stream_one`: the chunks it yields and how it ends. -/
def attempt (w : Outside) (role : OllamaRoleKey) (ep : OllamaModelEndpoint) :
    Reply → List OllamaResponseChunk × StreamEnd
  | .refused fault => ([], faultEnd fault)
  | .answered status lines broken =>
    if 400 ≤ status then ([], broken.elim (httpEnd status) faultEnd)
    else match readLines w role ep lines with
      | (cs, none) => (cs, broken.elim .complete faultEnd)
      | (cs, some .notJson) => (cs, httpEnd 502)
      | (cs, some .notObject) => (cs, .raised)

/-! ## One endpoint -/

/-- What the caller asks for. -/
structure Request where
  prompt : String
  options : AList fun _ : String => Json
  timeoutS : Option ℚ

/-- The request that every attempt at an endpoint makes; options write over the fields before them. -/
def postOf (ep : OllamaModelEndpoint) (req : Request) : Post :=
  let timeoutS := req.timeoutS.orElse fun _ => ep.timeoutS
  { url := ep.generateUrl
    body := req.options ∪
      (((∅ : AList fun _ : String => Json).insert "model" (.str ep.model)).insert
        "prompt" (.str req.prompt)).insert "stream" (.bool true)
    timeoutS := timeoutS
    connectS := min ep.connectTimeoutS (timeoutS.getD ep.connectTimeoutS) }

/-- `_stream_one` from attempt `k` on, with `left` retries after it. -/
def streamFrom (w : Outside) (req : Request) (role : OllamaRoleKey) (ep : OllamaModelEndpoint) :
    (left k : ℕ) → List Effect × StreamEnd
  | left, k =>
    let (cs, ending) := attempt w role ep (w.reply role k)
    let effects := .post role (postOf ep req) :: cs.map .chunk
    match ending, left with
    | .failed _, left + 1 =>
      let (rest, last) := streamFrom w req role ep left (k + 1)
      (effects ++ rest, last)
    | ending, _ => (effects, ending)

/-- `_stream_one`. -/
def streamOne (w : Outside) (req : Request) (role : OllamaRoleKey) (ep : OllamaModelEndpoint) :
    List Effect × StreamEnd :=
  streamFrom w req role ep ep.maxRetries 0

/-! ## The walk along the fallback chain -/

/-- The reason that goes with an error. -/
def reasonOf : ErrorKind → DegradedReason
  | .http statusCode => if 500 ≤ statusCode then .crashed else .unresponsive
  | .timeout => .timeout
  | .connect => .unresponsive

/-- The event of `_emit_degraded`, which validation may refuse. The publisher's errors are dropped,
so an event that is built is the last of it. -/
def degradedEvent (w : Outside) (fromRole : OllamaRoleKey) (source target : OllamaModelEndpoint)
    (reason : DegradedReason) : Option OllamaDegraded :=
  if h : (1 ≤ source.model.length ∧ source.model.length ≤ 128) ∧
      (1 ≤ target.model.length ∧ target.model.length ≤ 128) then
    some ⟨source.model, target.model, reason, w.wallClockNs fromRole, h.1, h.2⟩
  else none

namespace OllamaClient

variable (c : OllamaClient)

/-- The fallback of a role, when one is configured and registered. -/
def nextRole (role : OllamaRoleKey) : Option OllamaRoleKey :=
  (c.fallbackChain.lookup role).filter fun next => (c.endpoints.lookup next).isSome

/-- The error that says that no daemon is left. -/
def exhausted (originalRole : OllamaRoleKey)
    (failures : List (OllamaRoleKey × OllamaClientError)) : Outcome :=
  .exhausted originalRole ((c.endpoints.lookup originalRole).elim "" (·.model)) failures

/-- The `while True` loop of `stream_generate`. Without fuel it has not come to an end. -/
def walk (w : Outside) (req : Request) (originalRole : OllamaRoleKey) :
    ℕ → List OllamaRoleKey → List (OllamaRoleKey × OllamaClientError) → OllamaRoleKey →
    List Effect × Option Outcome
  | 0, _, _, _ => ([], none)
  | fuel + 1, visited, failures, current =>
    if current ∈ visited then ([], some (c.exhausted originalRole failures))
    else match c.endpoints.lookup current with
    | none => ([], some .raised)
    | some endpoint =>
      let (effects, ending) := streamOne w req current endpoint
      match ending with
      | .complete => (effects, some .complete)
      | .rejected kind => (effects, some (.rejected ⟨kind, current, endpoint.model⟩))
      | .raised => (effects, some .raised)
      | .failed kind =>
        let failures := failures ++ [(current, ⟨kind, current, endpoint.model⟩)]
        match c.nextRole current with
        | none => (effects, some (c.exhausted originalRole failures))
        | some next =>
          match (c.endpoints.lookup next).bind fun target =>
              degradedEvent w current endpoint target (reasonOf kind) with
          | none => (effects, some .raised)
          | some event =>
            let (rest, outcome) := walk w req originalRole fuel (visited ++ [current]) failures next
            (effects ++ .degraded event :: rest, outcome)

/-- The keys of the body that the client sets itself. -/
def reservedKeys : List String := ["model", "prompt", "stream"]

/-- `stream_generate`, run to its end. Fuel for every endpoint and for meeting one of them again is
enough. -/
def streamGenerate (w : Outside) (role : OllamaRoleKey) (req : Request) :
    List Effect × Option Outcome :=
  if role ∉ c.endpoints then ([], some .unknownRole)
  else match reservedKeys.find? fun key => key ∈ req.options with
    | some key => ([], some (.reservedKey key))
    | none => c.walk w req role (c.endpoints.keys.length + 1) [] [] role

end OllamaClient

end Hedge.Ai.Ollama
