import NearRewards.Guardrails
import NearRewards.Library.Effects
import NearRewards.Values

/-! Outbound sinks. An alert or a ticket passes the limiter first, and goes to a destination
where one is configured. What an action does outside the process is kept in a log, in the
order in which it does it; what the outside answers may depend on that log. -/

namespace NearRewards.Agent

/-- The settings a sink reads. -/
structure Settings where
  slackWebhookUrl : String := ""
  ticketEndpoint : String := ""
  githubRepo : String := ""
  githubToken : String := ""
  deriving DecidableEq, Repr

/-- A request as `urllib` is given it, its body before it is printed as JSON. -/
structure Request where
  url : String
  data : List (String × Value)
  headers : List (String × String)

/-- A response body, as far as it is read: reading it may raise, and it may be no JSON. A
blank one is no JSON either, and `text` is what the parser has to say about it. -/
inductive Body where
  | unreadable (raised : Exception)
  | blank (text : String)
  | malformed (text : String)
  | json (value : Value)

inductive Reply where
  | raised (raised : Exception)
  | answered (status : ℤ) (body : Body)

/-- What happens at the process's boundary, and at the limiter it shares with other threads. -/
inductive Effect where
  | checked (turn : Turn) (verdict : Verdict)
  | elsewhere (turn : Turn) (answer : Option Verdict)
  | recorded (name outcome detail : String)
  | requested (request : Request) (reply : Reply)

/-- What the process meets outside, each time after what has happened so far: the turns other
threads take at the limiter, when a check gets the lock and which time it has read before,
the replies, the ids, the environment variables. Of the interpreter it has the limit on the
digits of an integer, which holds for the integers it reads as well. -/
structure Environment where
  others : List Effect → List Turn
  entered : List Effect → Instant
  read : List Effect → Instant
  reply : List Effect → Request → Reply
  uuid : List Effect → String
  getenv : List Effect → String → Option String
  upper : String → String
  repr : Value → String
  limit : ℕ
  parsed : ∀ log request status value, reply log request = .answered status (.json value) → value.legible limit = true

structure World where
  limiter : ActionLimiter := {}
  /-- The notifier's `_run_id`. -/
  runId : String := "adhoc"
  log : List Effect := []

abbrev Action := EStateM Exception World

/-- `Notifier`, apart from the run it is bound to. -/
structure Notifier where
  settings : Settings
  policy : ActionPolicy
  recorder : Bool := false
  sourceLabel : String := "agent-core"

/-- What is computed apart from the process: a result, or an exception. -/
def attempt {α : Type} (computed : Except Exception α) : Action α :=
  match computed with
  | .ok value => return value
  | .error raised => throw raised

def emit (effect : Effect) : Action Unit := modify fun world => { world with log := world.log ++ [effect] }

/-- Another thread's turn at the limiter. -/
def yieldTo (policy : ActionPolicy) (world : World) (turn : Turn) : World :=
  let (answer, limiter) := (limiter policy).step world.limiter turn
  { world with limiter, log := world.log ++ [.elsewhere turn answer] }

section Sinks
variable (env : Environment) (notifier : Notifier)

/-- `urlopen`. -/
def urlopen (request : Request) : Action (ℤ × Body) := do
  let reply := env.reply (← get).log request
  emit (.requested request reply)
  match reply with
  | .raised raised => throw raised
  | .answered status body => return (status, body)

/-- `json.loads(resp.read().decode())`. -/
def loads : Body → Action Value
  | .unreadable raised => throw raised
  | .blank text => throw ⟨"JSONDecodeError", text⟩
  | .malformed text => throw ⟨"JSONDecodeError", text⟩
  | .json value => return value

namespace Notifier

def bindRun (runId : String) : Action Unit := modify fun world => { world with runId := if runId ≠ "" then runId else "adhoc" }

/-- The recorder may raise, and nobody hears of it. -/
def record (name outcome detail : String) : Action Unit := do
  if notifier.recorder then emit (.recorded name outcome detail)

/-- `self.limiter.check`, once the other threads have had their turns. -/
def limiterCheck (kind : String) : Action Verdict := do
  modify fun world => (env.others world.log).foldl (yieldTo notifier.policy) world
  let world ← get
  let turn : Turn := ⟨env.entered world.log, .check (env.read world.log) world.runId kind⟩
  let (verdict, limiter) := world.limiter.check notifier.policy (env.read world.log) world.runId kind
  modify fun world => { world with limiter }
  emit (.checked turn verdict)
  return verdict

def allowed (kind : String) : Action (Bool × String) := do
  let verdict ← notifier.limiterCheck env kind
  notifier.record "ACTION_LIMITER" (if verdict.allowed then "allowed" else "blocked") (kind ++ ": " ++ verdict.reason)
  return (verdict.allowed, verdict.reason)

def emoji (severity : String) : String :=
  if severity = "critical" then ":rotating_light:" else if severity = "warning" then ":warning:" else ":information_source:"

def sendAlert (channel : String) (title : Value) (message severity : String) : Action Doc := do
  let payload := [("channel", .str channel), ("title", title), ("message", .str message), ("severity", .str severity)]
  let (allowed, reason) ← notifier.allowed env "alert"
  if !allowed then
    return Dict.ofList ([("status", .str "suppressed"), ("delivery", .str "guardrail"), ("synthetic", .bool true),
      ("reason", .str reason)] ++ payload)
  else if notifier.settings.slackWebhookUrl ≠ "" then
    try
      let shown ← attempt (title.text env.limit env.repr)
      let text := emoji severity ++ " *[" ++ env.upper severity ++ "] " ++ shown ++ "*\n" ++ message
      let _ ← urlopen env ⟨notifier.settings.slackWebhookUrl, [("text", .str text)], [("Content-Type", "application/json")]⟩
      pure (Dict.ofList ([("status", .str "sent"), ("delivery", .str "slack"), ("synthetic", .bool false)] ++ payload))
    catch raised =>
      pure (Dict.ofList ([("status", .str "error"), ("delivery", .str "slack"), ("synthetic", .bool true),
        ("error", .str raised.text)] ++ payload))
  else
    return Dict.ofList ([("status", .str "logged"), ("delivery", .str "stub"), ("synthetic", .bool true),
      ("reason", .str "no alert sink configured (set AGENT_SLACK_WEBHOOK_URL)")] ++ payload)

/-- `out.get(key)`, which of all that JSON gives only a dict has. -/
def attributeGet (out : Value) (key : String) : Action Value :=
  match out with
  | .dict fields => return Doc.get (Dict.ofList fields) key
  | out => throw (noGet out.typeName)

/-- What an endpoint's answer is taken to say: nothing, unless it is a JSON object. -/
def readTicket (body : Body) : Action Doc :=
  match body with
  | .unreadable raised => throw raised
  | .json (.dict fields) => return Dict.ofList fields
  | _ => return ∅

def localId (uuid : String) : String :=
  let label := String.ofList (((env.upper notifier.sourceLabel).toList.filter (· ≠ '-')).take 6)
  "LOCAL-" ++ (if label ≠ "" then label else "AGENT") ++ "-" ++ uuid

/-- The GitHub issue. -/
def fileIssue (summary : Value) (description priority assignee : String) : Action Doc := do
  let s := notifier.settings
  let body := description ++ "\n\n---\n*Priority:* `" ++ priority ++ "`  \n*Filed by " ++ notifier.sourceLabel ++ ".*"
  let data := [("title", summary), ("body", .str body),
    ("labels", .list [.str "agent", .str "incident", .str priority])] ++
    (if assignee ≠ "" then [("assignees", .list [.str assignee])] else [])
  attempt (dumps env.limit data)
  let (_, body) ← urlopen env ⟨"https://api.github.com/repos/" ++ s.githubRepo ++ "/issues", data,
    [("Authorization", "Bearer " ++ s.githubToken), ("Accept", "application/vnd.github+json"),
      ("Content-Type", "application/json"), ("User-Agent", notifier.sourceLabel)]⟩
  let out ← loads body
  let number ← attempt ((← attributeGet out "number").text env.limit env.repr)
  let url ← attributeGet out "html_url"
  return Dict.ofList [("status", .str "created"), ("delivery", .str "github"), ("synthetic", .bool false),
    ("ticket_id", .str ("#" ++ number)), ("url", url), ("priority", .str priority)]

/-- The generic endpoint: only the identifiers it returned are reported. -/
def postTicket (summary : Value) (description priority assignee : String) : Action Doc := do
  let data := [("summary", summary), ("description", .str description), ("priority", .str priority),
    ("assignee", .str assignee)]
  attempt (dumps env.limit data)
  let (status, body) ← urlopen env ⟨notifier.settings.ticketEndpoint, data, [("Content-Type", "application/json")]⟩
  let out ← readTicket body
  let ticketId := ((Doc.get out "ticket_id").or (Doc.get out "id")).or (Doc.get out "key")
  let url := ((Doc.get out "url").or (Doc.get out "html_url")).or (Doc.get out "self")
  let ticketId ← attempt (ticketId.textOrNone env.limit env.repr)
  return Dict.ofList [("status", .str "created"), ("delivery", .str "endpoint"), ("synthetic", .bool false),
    ("ticket_id", ticketId), ("url", url), ("priority", .str priority), ("http_status", .int status)]

def ticketError (delivery priority : String) (raised : Exception) : Doc :=
  Dict.ofList [("status", .str "error"), ("delivery", .str delivery), ("synthetic", .bool true),
    ("error", .str raised.text), ("priority", .str priority)]

def openTicket (summary : Value) (description priority assignee : String) : Action Doc := do
  let (allowed, reason) ← notifier.allowed env "ticket"
  if !allowed then
    return Dict.ofList [("status", .str "suppressed"), ("delivery", .str "guardrail"), ("synthetic", .bool true),
      ("reason", .str reason), ("priority", .str priority)]
  else if notifier.settings.githubRepo ≠ "" ∧ notifier.settings.githubToken ≠ "" then
    try notifier.fileIssue env summary description priority assignee
    catch raised => pure (ticketError "github" priority raised)
  else if notifier.settings.ticketEndpoint ≠ "" then
    try notifier.postTicket env summary description priority assignee
    catch raised => pure (ticketError "endpoint" priority raised)
  else
    let uuid := env.uuid (← get).log
    return Dict.ofList [("status", .str "logged"), ("delivery", .str "stub"), ("synthetic", .bool true),
      ("ticket_id", .str (notifier.localId env uuid)), ("url", .none), ("priority", .str priority),
      ("reason", .str "no ticket backend configured; set AGENT_GITHUB_REPO + AGENT_GITHUB_TOKEN or AGENT_TICKET_ENDPOINT to file for real"),
      ("summary", summary)]

end Notifier
end Sinks
end NearRewards.Agent
