import NearRewards.Sinks

/-! The domain-aware action router. It classifies an incident, fires the handlers routed for
its domain one after the other, and returns a record of what came of it. -/

namespace NearRewards.Agent

def domainFinance : String := "finance"
def domainInfra : String := "infra"
def domainDataQuality : String := "data_quality"
def domainSecurity : String := "security"
def domainUnknown : String := "unknown"

/-- `_TEXT_FIELDS`. -/
def textFields : List String := ["summary", "correlation_summary", "description", "metric", "title", "kind"]

/-- A pattern is what `search` finds of it. -/
structure KeywordClassifier where
  signals : List (String × (String → Bool))
  precedence : List String := [domainSecurity, domainFinance]
  default : String := domainUnknown

namespace KeywordClassifier
variable (classifier : KeywordClassifier)

def haystack (incident : Doc) : String :=
  let parts := textFields.filterMap fun key => (Doc.get incident key).str?
  let nested := match Doc.get incident "anomaly" with
    | .dict fields => (Dict.ofList fields).entries.filterMap fun field => field.2.str?
    | _ => []
  " ".intercalate (parts ++ nested)

/-- Adds a domain that is not there yet. -/
def note (hits : List String) (domain : String) (found : Bool) : List String :=
  if found ∧ domain ∉ hits then hits ++ [domain] else hits

/-- A domain of the precedence is looked for with the last of its patterns. -/
def prefer (text : String) (hits : List String) (domain : String) : List String :=
  match (Dict.ofList classifier.signals).get? domain with
  | some pattern => note hits domain (pattern text)
  | none => hits

/-- Every domain whose signal matched, in precedence-then-signal order. -/
def hits (text : String) : List String :=
  let preferred := classifier.precedence.foldl (classifier.prefer text) []
  classifier.signals.foldl (fun hits signal => note hits signal.1 (signal.2 text)) preferred

def matches_ (incident : Doc) : List String := classifier.hits (haystack incident)

def classify (incident : Doc) : String := (classifier.matches_ incident).headD classifier.default

end KeywordClassifier

/-- What the router asks of a classifier, which may raise. An application's own may lack
`matches` and `default`. -/
structure Classifier where
  matches? : Option (Doc → Except Exception (List String))
  classify : Doc → Except Exception String
  default? : Option String

def KeywordClassifier.ducked (classifier : KeywordClassifier) : Classifier where
  matches? := some fun incident => .ok (classifier.matches_ incident)
  classify incident := .ok (classifier.classify incident)
  default? := some classifier.default

/-- What `execute` returns: a dict, or else something that has no `get`, whose class is named. -/
inductive HandlerResult where
  | dict (result : Doc)
  | object (typeName : String)

/-- A routing destination, an application's own among them. Both methods may raise. -/
structure Handler where
  name : String
  canHandle : String → Except Exception Bool
  execute : Doc → Action HandlerResult

section Handlers
variable (env : Environment) (notifier : Notifier)

/-- The text of an incident. -/
def incidentText (incident : Doc) : Except Exception String :=
  ((((Doc.get incident "summary").or (Doc.get incident "correlation_summary")).or (Doc.get incident "description")).or
    (.str "Anomaly detected.")).text env.limit env.repr

/-- The title of an alert. -/
def alertTitle (incident : Doc) : Except Exception Value :=
  let title := Doc.get incident "title"
  if title.truthy then .ok title
  else do
    let metric ← ((Doc.get incident "metric").or (.str "signal")).text env.limit env.repr
    return .str ("[" ++ metric ++ "] incident")

/-- The message of an alert. -/
def alertMessage (incident : Doc) : Except Exception String := do
  let message ← incidentText env incident
  let runId := Doc.get incident "run_id"
  if runId.truthy then return message ++ "\nRun: " ++ (← runId.text env.limit env.repr)
  else return message

/-- A sink's status as a handler reports it. -/
def handlerStatus (delivered : String) (result : Doc) : Value :=
  match (result.get? "status").getD (.str "error") with
  | .str status =>
    .str (if status = delivered then "fired" else if status = "logged" then "noop" else status)
  | status => status

def handlerSynthetic (status : Value) (result : Doc) : Bool :=
  ((result.get? "synthetic").getD (.bool (status.str? ≠ some "fired"))).truthy

/-- What the results of both handlers have in common. -/
def handlerResult (name : String) (status : Value) (result : Doc) (detail : List (String × Value)) : Doc :=
  Dict.ofList [("status", status), ("handler", .str name),
    ("artifact_url", if status.str? = some "fired" then Doc.get result "url" else .none),
    ("synthetic", .bool (handlerSynthetic status result)), ("detail", .dict detail)]

def alertHandler (domains : List String) (channel : String) : Handler where
  name := "alert"
  canHandle domain := .ok (domain ∈ domains)
  execute incident := do
    let title ← attempt (alertTitle env incident)
    let message ← attempt (alertMessage env incident)
    let r ← notifier.sendAlert env channel title message "critical"
    let status := handlerStatus "sent" r
    return .dict (handlerResult "alert" status r [("delivery", Doc.get r "delivery"), ("channel", .str channel),
      ("reason", Doc.get r "reason"), ("error", Doc.get r "error")])

/-- The domains an alert handler fires for by default. -/
def alertDomains : List String := [domainFinance, domainSecurity]

def ticketHandler (priority : String) : Handler where
  name := "ticket"
  canHandle _ := .ok true
  execute incident := do
    let summary := (Doc.get incident "title").or (.str "Incident requires attention")
    let description ← attempt (incidentText env incident)
    let r ← notifier.openTicket env summary description priority ""
    let status := handlerStatus "created" r
    return .dict (handlerResult "ticket" status r [("ticket_id", Doc.get r "ticket_id"), ("delivery", Doc.get r "delivery"),
      ("synthetic", .bool (handlerSynthetic status r)), ("reason", Doc.get r "reason"), ("error", Doc.get r "error")])

end Handlers

/-- `DEFAULT_ROUTING`. -/
def defaultRouting : Dict String (List String) :=
  Dict.ofList [(domainFinance, ["alert", "ticket"]), (domainInfra, ["ticket"]), (domainDataQuality, ["ticket"]),
    (domainSecurity, ["alert", "ticket"]), (domainUnknown, ["ticket"])]

structure Router where
  registry : Dict String Handler
  classifier : Classifier
  routing : Dict String (List String) := defaultRouting
  envPrefix : String := "AGENT"

/-- What a routed incident leaves in the audit trail. -/
structure RoutingRecord where
  domain : String
  domains : List String
  route : List String
  handlers : List Doc
  artifacts : Doc
  primaryArtifactUrl : Value
  deliveryMode : String

/-- What the loop over the handlers has gathered so far. -/
structure Fired where
  fired : List Doc := []
  artifacts : Doc := ∅
  primary : Value := .none

namespace Router
variable (env : Environment) (router : Router)

/-- The registry; of two handlers of one name the later one is kept. -/
def register (handlers : List Handler) : Dict String Handler := Dict.ofList (handlers.map fun handler => (handler.name, handler))

def strip (s : String) : String := String.ofList (stripped s.toList)

/-- `_route_for`: an environment variable overrides the routing table. -/
def routeFor (log : List Effect) (domain : String) : List String :=
  let names := match env.getenv log (router.envPrefix ++ "_ROUTING_" ++ env.upper domain) with
    | some raw => ((raw.splitOn ",").map strip).filter (· ≠ "")
    | none => []
  if names ≠ [] then names
  else (router.routing.get? domain).getD ((router.routing.get? domainUnknown).getD ["ticket"])

/-- The domain an incident is routed by, and all that matched. -/
def domainsOf (incident : Doc) : Except Exception (String × List String) :=
  match router.classifier.matches? with
  | some matcher => do
    let domains ← matcher incident
    return (domains.headD (router.classifier.default?.getD domainUnknown), domains)
  | none => do
    let domain ← router.classifier.classify incident
    return (domain, [domain])

/-- A real delivery contributes its identifiers, anything else nothing. -/
def gather (name : String) (result : Doc) (gathered : Fired) : Except Exception Fired :=
  let gathered := { gathered with fired := gathered.fired ++ [result] }
  if (Doc.get result "status").str? ≠ some "fired" ∨ (Doc.get result "synthetic").truthy then
    .ok gathered
  else
    let url := Doc.get result "artifact_url"
    match (Doc.get result "detail").or (.dict []) with
    | .dict detail =>
      let ticketId := Doc.get (Dict.ofList detail) "ticket_id"
      let artifacts := if url.truthy then gathered.artifacts.insert name url else gathered.artifacts
      let artifacts :=
        if ticketId.truthy ∧ artifacts.get? "ticket_id" = none then artifacts.insert "ticket_id" ticketId else artifacts
      let primary := match gathered.primary with
        | .none => url.or ticketId
        | primary => primary
      .ok { gathered with artifacts, primary }
    | det => .error (noGet det.typeName)

/-- The entry of a name that is not registered. -/
def unknownEntry (name : String) : Doc :=
  Dict.ofList [("handler", .str name), ("status", .str "error"),
    ("detail", .dict [("error", .str ("unknown handler " ++ env.repr (.str name)))])]

/-- The entry of a handler that has raised. -/
def raisedEntry (name : String) (raised : Exception) : Doc :=
  Dict.ofList [("handler", .str name), ("status", .str "error"),
    ("detail", .dict [("error", .str (raised.kind ++ ": " ++ raised.text))])]

/-- One turn of the loop. A handler whose `execute` raises has an error entry, and the next one
its turn; whatever else raises goes through. -/
def fire (incident : Doc) (domain : String) (gathered : Fired) (name : String) : Action Fired :=
  match router.registry.get? name with
  | none => return { gathered with fired := gathered.fired ++ [unknownEntry env name] }
  | some handler => do
    if ← attempt (handler.canHandle domain) then
      let result ← try handler.execute incident catch raised => pure (.dict (raisedEntry name raised))
      match result with
      | .dict result => attempt (gather name result gathered)
      | .object typeName => throw (noGet typeName)
    else return gathered

def route (incident : Doc) : Action RoutingRecord := do
  let (domain, domains) ← attempt (router.domainsOf incident)
  let route := router.routeFor env (← get).log domain
  let gathered ← route.foldlM (router.fire env incident domain) {}
  let delivered := gathered.fired.any fun h => (Doc.get h "status").str? = some "fired" ∧ ¬(Doc.get h "synthetic").truthy
  return { domain, domains, route, handlers := gathered.fired, artifacts := gathered.artifacts,
           primaryArtifactUrl := gathered.primary, deliveryMode := if delivered then "live" else "synthetic" }

end Router

/-- What an application does with its notifier. -/
inductive Job where
  | bindRun (runId : String)
  | alert (channel : String) (title : Value) (message severity : String)
  | ticket (summary : Value) (description priority assignee : String)
  | route (router : Router) (incident : Doc)

section Jobs
variable (env : Environment) (notifier : Notifier)

def Job.perform : Job → Action Unit
  | .bindRun runId => Notifier.bindRun runId
  | .alert channel title message severity => do
    let _ ← notifier.sendAlert env channel title message severity
  | .ticket summary description priority assignee => do
    let _ ← notifier.openTicket env summary description priority assignee
  | .route router incident => do
    let _ ← router.route env incident

/-- Job after job; if one raises, the next has its turn. -/
def work : List Job → Action Unit
  | [] => return
  | job :: jobs => do
    try job.perform env notifier catch _ => pure ()
    work jobs

end Jobs
end NearRewards.Agent
