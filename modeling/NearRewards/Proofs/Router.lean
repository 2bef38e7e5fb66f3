import NearRewards.Proofs.Sinks
import NearRewards.Router

/-! The turns of a route. Handlers have theirs one after the other whatever the others do, and
a handler around the notifier reports what its sink has done. -/

namespace NearRewards.Agent
open EStateM (bind_apply tryCatch_apply)

/-- What a handler's action comes to, in the words of its result. -/
inductive Fires (env : Environment) (notifier : Notifier) : Bool → List Effect → Doc → Prop where
  | held {allowed result status} (status_ : Doc.get result "status" = .str status) (other : status ≠ "fired") :
      Fires env notifier allowed [] result
  | failed {request reply result} (refused : ∀ code fields, reply ≠ .answered code (.json (.dict fields)))
      (status : Doc.get result "status" = .str "error") : Fires env notifier true [.requested request reply] result
  | fired {request code body result detail} (status : Doc.get result "status" = .str "fired")
      (synthetic : Doc.get result "synthetic" = .bool false)
      (url : Doc.get result "artifact_url" = .none ∨ Names env body (Doc.get result "artifact_url"))
      (described : Doc.get result "detail" = .dict detail)
      (ticket : Ticketed env notifier body (Doc.get (Dict.ofList detail) "ticket_id")) :
      Fires env notifier true [.requested request (.answered code body)] result

section Printing
variable {env : Environment} {incident : Doc} {α β : Type}

/-- Every integer of the incident can be printed. -/
def Legible (env : Environment) (incident : Doc) : Prop := legibleFields env.limit incident.entries = true

/-- Something printed of the incident fails only on one that is not legible. -/
def Prints (env : Environment) (incident : Doc) (computed : Except Exception α) : Prop :=
  (∃ value, computed = .ok value) ∨ computed = .error (tooLong env.limit) ∧ ¬Legible env incident

theorem Legible.get (legible : Legible env incident) (key : String) : (Doc.get incident key).legible env.limit = true := by
  unfold Doc.get
  cases found : incident.get? key with
  | none => rfl
  | some value => exact legible_of_mem legible (Dict.get?_eq_some.mp found)

theorem legible_or {limit : ℕ} {value other : Value} (first : value.legible limit = true) (second : other.legible limit = true) :
    (value.or other).legible limit = true := by
  unfold Value.or
  split
  · exact first
  · exact second

theorem text_prints {value : Value} (legible : Legible env incident → value.legible env.limit = true) :
    Prints env incident (value.text env.limit env.repr) := by
  by_cases printed : value.legible env.limit = true
  · exact Or.inl ⟨_, text_of_legible printed⟩
  · exact Or.inr ⟨if_neg printed, fun readable => printed (legible readable)⟩

theorem Prints.bind {computed : Except Exception α} {next : α → Except Exception β} (prints : Prints env incident computed)
    (later : ∀ value, Prints env incident (next value)) : Prints env incident (computed >>= next) := by
  rcases prints with ⟨value, rfl⟩ | ⟨rfl, illegible⟩
  · exact later value
  · exact Or.inr ⟨rfl, illegible⟩

theorem incidentText_prints (env : Environment) (incident : Doc) : Prints env incident (incidentText env incident) := by
  apply text_prints
  intro legible
  exact legible_or (legible_or (legible_or (legible.get _) (legible.get _)) (legible.get _)) rfl

theorem alertTitle_prints (env : Environment) (incident : Doc) : Prints env incident (alertTitle env incident) := by
  unfold alertTitle
  dsimp only
  split
  · exact Or.inl ⟨_, rfl⟩
  · apply (text_prints fun legible => legible_or (legible.get _) rfl).bind
    exact fun metric => Or.inl ⟨_, rfl⟩

theorem alertMessage_prints (env : Environment) (incident : Doc) : Prints env incident (alertMessage env incident) := by
  unfold alertMessage
  apply (incidentText_prints env incident).bind
  intro message
  dsimp only
  split
  · apply (text_prints fun legible => legible.get _).bind
    exact fun runId => Or.inl ⟨_, rfl⟩
  · exact Or.inl ⟨_, rfl⟩

end Printing
section Handlers
variable {env : Environment} {notifier : Notifier}

theorem handlerResult_get (name : String) (status : Value) (result : Doc) (detail : List (String × Value)) :
    Doc.get (handlerResult name status result detail) "status" = status ∧
      Doc.get (handlerResult name status result detail) "handler" = .str name ∧
      Doc.get (handlerResult name status result detail) "synthetic" = .bool (handlerSynthetic status result) ∧
      Doc.get (handlerResult name status result detail) "artifact_url" =
        (if status.str? = some "fired" then Doc.get result "url" else .none) ∧
      Doc.get (handlerResult name status result detail) "detail" = .dict detail := by
  unfold handlerResult
  refine ⟨?_, ?_, ?_, ?_, ?_⟩ <;> simp [get_ofList, List.lookup_cons]

/-- A handler reports what its sink has done. -/
theorem Sends.fires {delivered : String} {allowed : Bool} {effects : List Effect} {result : Doc}
    (sends : Sends env notifier delivered allowed effects result) (name : String) {detail : List (String × Value)}
    (known : delivered ∉ ["logged", "suppressed", "error"])
    (ticket : Doc.get (Dict.ofList detail) "ticket_id" = .none ∨
      Doc.get (Dict.ofList detail) "ticket_id" = Doc.get result "ticket_id") :
    Fires env notifier allowed effects (handlerResult name (handlerStatus delivered result) result detail) := by
  obtain ⟨status, _, synthetic, url, described⟩ := handlerResult_get name (handlerStatus delivered result) result detail
  simp only [List.mem_cons, List.not_mem_nil, or_false, not_or] at known
  cases sends with
  | suppressed stated _ =>
    have reported : handlerStatus delivered result = .str "suppressed" := by
      simp [handlerStatus, stated, Ne.symm known.2.1]
    exact .held (status.trans reported) (by decide)
  | logged stated _ =>
    have reported : handlerStatus delivered result = .str "noop" := by
      simp [handlerStatus, stated, Ne.symm known.1]
    exact .held (status.trans reported) (by decide)
  | unsent stated _ =>
    have reported : handlerStatus delivered result = .str "error" := by
      simp [handlerStatus, stated, Ne.symm known.2.2]
    exact .held (status.trans reported) (by decide)
  | failed refused stated _ =>
    have reported : handlerStatus delivered result = .str "error" := by
      simp [handlerStatus, stated, Ne.symm known.2.2]
    exact .failed refused (status.trans reported)
  | delivered stated marked address number =>
    have reported : handlerStatus delivered result = .str "fired" := by
      simp [handlerStatus, stated]
    refine .fired (status.trans reported) ?_ ?_ described ?_
    · rw [synthetic, handlerSynthetic, marked]
      rfl
    · rw [url, reported]
      exact address
    · rcases ticket with none | same
      · exact Or.inl none
      · rw [same]
        exact number

/-- What a handler around the notifier comes to: it acts once and reports what came of it,
unless there is something in the incident that cannot be printed. -/
inductive Executes (env : Environment) (notifier : Notifier) (kind : String) (incident : Doc) (world : World) :
    EStateM.Result Exception World HandlerResult → Prop where
  | illegible (illegible : ¬Legible env incident) :
      Executes env notifier kind incident world (.error (tooLong env.limit) world)
  | acted {verdict middle effects result} (checks : Checks notifier kind world verdict middle)
      (fires : Fires env notifier verdict.allowed effects result) (named : Doc.get result "handler" = .str kind) :
      Executes env notifier kind incident world (.ok (.dict result) (middle.append effects))

theorem alertHandler_executes (domains : List String) (channel : String) (incident : Doc) (world : World) :
    Executes env notifier "alert" incident world ((alertHandler env notifier domains channel).execute incident world) := by
  dsimp only [alertHandler]
  rw [bind_apply, attempt_apply]
  rcases alertTitle_prints env incident with ⟨title, printed⟩ | ⟨failed, illegible⟩
  · rw [printed]
    dsimp only
    rw [bind_apply, attempt_apply]
    rcases alertMessage_prints env incident with ⟨message, printed⟩ | ⟨failed, illegible⟩
    · rw [printed]
      dsimp only
      obtain ⟨result, final, ran, verdict, middle, effects, checks, rfl, sends⟩ :=
        sendAlert_acts env notifier channel title message "critical" world
      rw [bind_apply, ran]
      refine .acted checks ?_ (handlerResult_get _ _ _ _).2.1
      exact sends.fires "alert" (by decide) (Or.inl (by simp [get_ofList, List.lookup_cons]))
    · rw [failed]
      exact .illegible illegible
  · rw [failed]
    exact .illegible illegible

theorem ticketHandler_executes (priority : String) (incident : Doc) (world : World) :
    Executes env notifier "ticket" incident world ((ticketHandler env notifier priority).execute incident world) := by
  dsimp only [ticketHandler]
  rw [bind_apply, attempt_apply]
  rcases incidentText_prints env incident with ⟨description, printed⟩ | ⟨failed, illegible⟩
  · rw [printed]
    dsimp only
    obtain ⟨result, final, ran, verdict, middle, effects, checks, rfl, sends⟩ :=
      openTicket_acts env notifier ((Doc.get incident "title").or (.str "Incident requires attention")) description
        priority "" world
    rw [bind_apply, ran]
    refine .acted checks ?_ (handlerResult_get _ _ _ _).2.1
    exact sends.fires "ticket" (by decide) (Or.inr (by simp [get_ofList, List.lookup_cons]))
  · rw [failed]
    exact .illegible illegible

end Handlers

section Gathering
variable {name : String} {result : Doc} {gathered : Fired}

/-- What counts as a delivery. -/
def Delivered (result : Doc) : Prop := (Doc.get result "status").str? = some "fired" ∧ ¬(Doc.get result "synthetic").truthy

instance (result : Doc) : Decidable (Delivered result) := inferInstanceAs (Decidable (_ ∧ _))

theorem gather_held (held : ¬Delivered result) :
    Router.gather name result gathered = .ok { gathered with fired := gathered.fired ++ [result] } := by
  unfold Router.gather
  rw [if_pos]
  by_cases status : (Doc.get result "status").str? = some "fired"
  · exact Or.inr (not_not.mp fun real => held ⟨status, real⟩)
  · exact Or.inl status

/-- What a delivery adds to the record. -/
theorem gather_fired {detail : List (String × Value)} (delivered : Delivered result)
    (described : (Doc.get result "detail").or (.dict []) = .dict detail) :
    ∃ later, Router.gather name result gathered = .ok later ∧ later.fired = gathered.fired ++ [result] ∧
      (∀ key value, later.artifacts.get? key = some value → gathered.artifacts.get? key = some value ∨
        value = Doc.get result "artifact_url" ∧ value.truthy = true ∨
        value = Doc.get (Dict.ofList detail) "ticket_id" ∧ value.truthy = true) ∧
      (later.primary = gathered.primary ∨ later.primary = Doc.get result "artifact_url" ∨
        later.primary = Doc.get (Dict.ofList detail) "ticket_id") := by
  obtain ⟨status, real⟩ := delivered
  unfold Router.gather
  rw [if_neg (by simp [status, real]), described]
  dsimp only
  generalize Doc.get result "artifact_url" = url
  generalize Doc.get (Dict.ofList detail) "ticket_id" = ticketId
  refine ⟨_, rfl, rfl, fun key value found => ?_, ?_⟩
  · dsimp only at found
    -- the identifier of the ticket went in last
    split_ifs at found with ticket address address
    all_goals grind [Dict.get?_insert]
  · dsimp only
    cases gathered.primary with
    | none => exact Or.inr (ite_eq_or_eq _ _ _)
    | _ => exact Or.inl rfl

end Gathering
section Routes
variable {env : Environment} {router : Router} {incident : Doc} {domain : String}

/-- What a handler promises: `can_handle` answers for the domain, and `execute` returns a dict,
unless it raises; a delivery comes with its details in a dict, or without any. -/
structure Proper (domain : String) (handler : Handler) : Prop where
  answers : ∃ able, handler.canHandle domain = .ok able
  returns : ∀ incident world result final, handler.execute incident world = .ok result final → ∃ doc, result = .dict doc ∧
    (Delivered doc → ∃ detail, (Doc.get doc "detail").or (.dict []) = .dict detail)

/-- The turn of a name: the entries it adds to the record, one at most, and what it leaves behind. -/
inductive Round (env : Environment) (router : Router) (incident : Doc) (domain name : String) (world : World) :
    List Doc → World → Prop where
  | unknown (missing : router.registry.get? name = none) :
      Round env router incident domain name world [Router.unknownEntry env name] world
  | declined {handler} (found : router.registry.get? name = some handler) (declined : handler.canHandle domain = .ok false) :
      Round env router incident domain name world [] world
  | returned {handler result final} (found : router.registry.get? name = some handler)
      (able : handler.canHandle domain = .ok true) (ran : handler.execute incident world = .ok (.dict result) final) :
      Round env router incident domain name world [result] final
  | raised {handler raised final} (found : router.registry.get? name = some handler)
      (able : handler.canHandle domain = .ok true) (ran : handler.execute incident world = .error raised final) :
      Round env router incident domain name world [Router.raisedEntry name raised] final

theorem unknownEntry_held (name : String) : ¬Delivered (Router.unknownEntry env name) := by
  rintro ⟨status, _⟩
  simp [Router.unknownEntry, get_ofList, List.lookup_cons, Value.str?] at status

theorem raisedEntry_held (name : String) (raised : Exception) : ¬Delivered (Router.raisedEntry name raised) := by
  rintro ⟨status, _⟩
  simp [Router.raisedEntry, get_ofList, List.lookup_cons, Value.str?] at status

/-- With handlers that keep their promise a turn does not raise. -/
theorem fire_round (proper : ∀ name handler, router.registry.get? name = some handler → Proper domain handler)
    (name : String) (gathered : Fired) (world : World) :
    ∃ later final entries, router.fire env incident domain gathered name world = .ok later final ∧
      later.fired = gathered.fired ++ entries ∧ Round env router incident domain name world entries final := by
  unfold Router.fire
  cases found : router.registry.get? name with
  | none => exact ⟨_, world, _, rfl, rfl, .unknown found⟩
  | some handler =>
    obtain ⟨⟨able, answered⟩, returns⟩ := proper name handler found
    dsimp only
    rw [bind_apply, attempt_apply, answered]
    dsimp only
    cases able with
    | false => exact ⟨gathered, world, [], rfl, (List.append_nil _).symm, .declined found answered⟩
    | true =>
      rw [if_pos rfl, bind_apply, tryCatch_apply]
      cases ran : handler.execute incident world with
      | error raised final =>
        dsimp only [EStateM.pure_apply]
        rw [gather_held (raisedEntry_held name raised)]
        exact ⟨_, final, _, rfl, rfl, .raised found answered ran⟩
      | ok result final =>
        obtain ⟨doc, rfl, described⟩ := returns incident world result final ran
        dsimp only
        by_cases delivered : Delivered doc
        · obtain ⟨detail, given⟩ := described delivered
          obtain ⟨later, gathers, fired, _⟩ := gather_fired delivered given
          rw [gathers]
          exact ⟨later, final, [doc], rfl, fired, .returned found answered ran⟩
        · rw [gather_held delivered]
          exact ⟨_, final, [doc], rfl, rfl, .returned found answered ran⟩

/-- The record of what the loop has gathered. -/
def Router.report (found : String × List String) (route : List String) (gathered : Fired) : RoutingRecord where
  domain := found.1
  domains := found.2
  route := route
  handlers := gathered.fired
  artifacts := gathered.artifacts
  primaryArtifactUrl := gathered.primary
  deliveryMode := if gathered.fired.any fun result => Delivered result then "live" else "synthetic"

/-- A route, given what its turns keep. -/
theorem route_keeps (P : List String → Fired → World → Prop) {found : String × List String}
    (classified : router.domainsOf incident = .ok found) (world : World)
    (keeps : ∀ before name gathered reached, P before gathered reached → ∃ later final,
      router.fire env incident found.1 gathered name reached = .ok later final ∧ P (before ++ [name]) later final)
    (start : P [] {} world) :
    ∃ gathered final, router.route env incident world =
        .ok (Router.report found (router.routeFor env world.log found.1) gathered) final ∧
      P (router.routeFor env world.log found.1) gathered final := by
  obtain ⟨gathered, final, looped, kept⟩ := EStateM.foldlM_keeps P keeps _ start
  refine ⟨gathered, final, ?_, kept⟩
  unfold Router.route
  rw [bind_apply, attempt_apply, classified]
  dsimp only
  rw [bind_apply]
  dsimp only [EStateM.get_apply]
  rw [bind_apply, looped]
  rfl

end Routes

/-- Nobody else is at the limiter, and the tracker answers. -/
def office : Environment where
  others _ := []
  entered log := log.length * second
  read log := log.length * second
  reply _ _ := .answered 201 (.json (.dict [("number", .int 7), ("html_url", .str "https://github.com/acme/ops/issues/7")]))
  uuid _ := "0A1B2C3D"
  getenv _ _ := none
  upper s := s.map Char.toUpper
  repr value := value.shown fun _ => ""
  limit := Client.defaultLimit
  parsed := by
    intro _ _ _ _ answered
    cases answered
    decide +kernel

def desk : Notifier where
  settings := { githubRepo := "acme/ops", githubToken := "token" }
  policy := ⟨false, 4, 20⟩
  recorder := true

/-- A classifier that looks for one word. -/
def till : Classifier :=
  KeywordClassifier.ducked { signals := [(domainFinance, fun text => "Checkout".toList <:+: text.toList)] }

def outage : Doc := Dict.ofList [("title", .str "Checkout down"), ("summary", .str "No orders since noon.")]

section Stock
variable {env : Environment} {notifier : Notifier} {router : Router} {incident : Doc} {domain : String}

/-- A check asks no destination for anything. -/
theorem Checks.quiet {kind : String} {world middle : World} {verdict : Verdict}
    (checks : Checks notifier kind world verdict middle) :
    ∃ effects, middle.log = world.log ++ effects ∧ ∀ request reply, .requested request reply ∉ effects := by
  obtain ⟨answered, entered, now, verdict, state, own, _, _⟩ := checks
  refine ⟨_, rfl, fun request reply requested => ?_⟩
  rcases List.mem_append.mp requested with other | checked
  · obtain ⟨entry, _, same⟩ := List.mem_map.mp other
    cases same
  · rcases List.mem_cons.mp checked with same | recorded
    · cases same
    · unfold audit at recorded
      split at recorded
      · cases List.mem_singleton.mp recorded
      · cases recorded

/-- The handlers that come with the router. -/
inductive Stock (env : Environment) (notifier : Notifier) : Handler → Prop where
  | alert (domains channel) : Stock env notifier (alertHandler env notifier domains channel)
  | ticket (priority) : Stock env notifier (ticketHandler env notifier priority)

theorem Stock.answers {handler : Handler} (stock : Stock env notifier handler) (domain : String) :
    ∃ able, handler.canHandle domain = .ok able := by
  cases stock with
  | alert domains channel => exact ⟨_, rfl⟩
  | ticket priority => exact ⟨_, rfl⟩

theorem Stock.executes {handler : Handler} (stock : Stock env notifier handler) (incident : Doc) (world : World) :
    Executes env notifier handler.name incident world (handler.execute incident world) := by
  cases stock with
  | alert domains channel => exact alertHandler_executes domains channel incident world
  | ticket priority => exact ticketHandler_executes priority incident world

theorem registered {handlers : List Handler} {name : String} {handler : Handler}
    (found : (Router.register handlers).get? name = some handler) : handler ∈ handlers ∧ handler.name = name := by
  obtain ⟨one, among, same⟩ := List.mem_map.mp (Dict.mem_of_ofList found)
  cases same
  exact ⟨among, rfl⟩

/-- The router as it comes: one alert handler, for the default domains, and one ticket handler. -/
def usual (env : Environment) (notifier : Notifier) (channel priority : String) (classifier : Classifier) : Router where
  registry := Router.register [alertHandler env notifier alertDomains channel, ticketHandler env notifier priority]
  classifier := classifier

theorem usual_stock {channel priority : String} {classifier : Classifier} {name : String} {handler : Handler}
    (found : (usual env notifier channel priority classifier).registry.get? name = some handler) : Stock env notifier handler := by
  obtain ⟨among, _⟩ := registered found
  rcases List.mem_cons.mp among with rfl | last
  · exact .alert alertDomains channel
  · rw [List.mem_singleton.mp last]
    exact .ticket priority

theorem classified_outage :
    (usual office desk "#ops" "P1" till).domainsOf outage = .ok (domainFinance, [domainFinance]) := by decide +kernel

/-- What is reported as a delivery has its details. -/
theorem Fires.described {allowed : Bool} {effects : List Effect} {result : Doc}
    (fires : Fires env notifier allowed effects result) (delivered : Delivered result) :
    ∃ detail, (Doc.get result "detail").or (.dict []) = .dict detail := by
  have fired := delivered.1
  cases fires with
  | held status other =>
    rw [status] at fired
    exact absurd (Option.some.inj fired) other
  | failed _ status =>
    rw [status] at fired
    exact absurd fired (by decide)
  | @fired _ _ _ _ detail _ _ _ described _ =>
    rw [described]
    exact ⟨detail, Value.dict_or detail⟩

theorem Stock.proper {handler : Handler} (stock : Stock env notifier handler) (domain : String) : Proper domain handler := by
  refine ⟨stock.answers domain, fun incident world result final ran => ?_⟩
  have executes := stock.executes incident world
  rw [ran] at executes
  cases executes with
  | acted checks fires named => exact ⟨_, rfl, fires.described⟩

/-- What a turn of the loop can be, when the handlers are those that come with the router. -/
inductive Turned (env : Environment) (notifier : Notifier) (router : Router) (incident : Doc) (domain name : String)
    (gathered : Fired) (world : World) : Fired → World → Prop where
  | unknown (missing : router.registry.get? name = none) : Turned env notifier router incident domain name gathered world
      { gathered with fired := gathered.fired ++ [Router.unknownEntry env name] } world
  | declined {handler} (found : router.registry.get? name = some handler) (declined : handler.canHandle domain = .ok false) :
      Turned env notifier router incident domain name gathered world gathered world
  | illegible {handler} (found : router.registry.get? name = some handler) (able : handler.canHandle domain = .ok true)
      (illegible : ¬Legible env incident) : Turned env notifier router incident domain name gathered world
      { gathered with fired := gathered.fired ++ [Router.raisedEntry name (tooLong env.limit)] } world
  | acted {handler verdict middle effects result later} (found : router.registry.get? name = some handler)
      (able : handler.canHandle domain = .ok true) (checks : Checks notifier handler.name world verdict middle)
      (fires : Fires env notifier verdict.allowed effects result) (named : Doc.get result "handler" = .str handler.name)
      (gathers : Router.gather name result gathered = .ok later) :
      Turned env notifier router incident domain name gathered world later (middle.append effects)

theorem Fires.gathers {allowed : Bool} {effects : List Effect} {result : Doc}
    (fires : Fires env notifier allowed effects result) (name : String) (gathered : Fired) :
    ∃ later, Router.gather name result gathered = .ok later := by
  by_cases delivered : Delivered result
  · obtain ⟨detail, given⟩ := fires.described delivered
    obtain ⟨later, gathers, _⟩ := gather_fired delivered given
    exact ⟨later, gathers⟩
  · exact ⟨_, gather_held delivered⟩

theorem fire_turned (stock : ∀ name handler, router.registry.get? name = some handler → Stock env notifier handler)
    (name : String) (gathered : Fired) (world : World) :
    ∃ later final, router.fire env incident domain gathered name world = .ok later final ∧
      Turned env notifier router incident domain name gathered world later final := by
  unfold Router.fire
  cases found : router.registry.get? name with
  | none => exact ⟨_, world, rfl, .unknown found⟩
  | some handler =>
    have mine := stock name handler found
    obtain ⟨able, answered⟩ := mine.answers domain
    dsimp only
    rw [bind_apply, attempt_apply, answered]
    dsimp only
    cases able with
    | false => exact ⟨gathered, world, rfl, .declined found answered⟩
    | true =>
      rw [if_pos rfl, bind_apply, tryCatch_apply]
      have executes := mine.executes incident world
      generalize handler.execute incident world = ended at executes
      cases executes with
      | illegible illegible =>
        dsimp only [EStateM.pure_apply]
        rw [gather_held (raisedEntry_held name _)]
        exact ⟨_, world, rfl, .illegible found answered illegible⟩
      | acted checks fires named =>
        obtain ⟨later, gathers⟩ := fires.gathers name gathered
        dsimp only
        rw [gathers]
        exact ⟨later, _, rfl, .acted found answered checks fires named gathers⟩

end Stock
end NearRewards.Agent
