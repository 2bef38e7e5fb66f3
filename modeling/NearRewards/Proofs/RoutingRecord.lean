import NearRewards.Proofs.Router

/-! What a routing record can be trusted with. It claims a delivery, or names what was
delivered, only where a destination has said so, and has an entry for every handler that acted. -/

namespace NearRewards.Agent

section Honesty
variable {env : Environment} {notifier : Notifier} {router : Router} {incident : Doc} {domain : String}

/-- A destination has answered a request with this body. -/
def Answered (block : List Effect) (body : Body) : Prop :=
  ∃ request code, .requested request (.answered code body) ∈ block

/-- A destination has reported the value. -/
def Reported (env : Environment) (block : List Effect) (value : Value) : Prop :=
  ∃ body, Answered block body ∧ Names env body value

/-- The value stands for an issue that was answered without a number. -/
def Nameless (notifier : Notifier) (block : List Effect) (value : Value) : Prop :=
  ∃ body, Answered block body ∧ Unnumbered notifier body value

/-- The value is what a destination has reported, or stands for an issue without a number. -/
def Traced (env : Environment) (notifier : Notifier) (block : List Effect) (value : Value) : Prop :=
  Reported env block value ∨ Nameless notifier block value

theorem Answered.mono {block : List Effect} {body : Body} (answered : Answered block body) (effects : List Effect) :
    Answered (block ++ effects) body := by
  obtain ⟨request, code, sent⟩ := answered
  exact ⟨request, code, List.mem_append_left _ sent⟩

theorem Traced.mono {block : List Effect} {value : Value} (traced : Traced env notifier block value) (effects : List Effect) :
    Traced env notifier (block ++ effects) value := by
  rcases traced with ⟨body, answered, named⟩ | ⟨body, answered, unnumbered⟩
  · exact Or.inl ⟨body, answered.mono effects, named⟩
  · exact Or.inr ⟨body, answered.mono effects, unnumbered⟩

theorem Ticketed.traced {block : List Effect} {body : Body} {value : Value} (ticketed : Ticketed env notifier body value)
    (answered : Answered block body) : value = .none ∨ Traced env notifier block value := by
  rcases ticketed with none | named | unnumbered
  · exact Or.inl none
  · exact Or.inr (Or.inl ⟨body, answered, named⟩)
  · exact Or.inr (Or.inr ⟨body, answered, unnumbered⟩)

/-- What the loop has gathered is backed by what has happened since it began. -/
structure Backed (env : Environment) (notifier : Notifier) (block : List Effect) (gathered : Fired) : Prop where
  live : (∃ result ∈ gathered.fired, Delivered result) → ∃ body, Answered block body
  answered : ∀ fields, Answered block (.json (.dict fields)) → ∃ result ∈ gathered.fired, Delivered result
  artifacts : ∀ key value, gathered.artifacts.get? key = some value → Traced env notifier block value
  primary : gathered.primary = .none ∨ Traced env notifier block gathered.primary

/-- Nothing that was not delivered goes into the record, and nothing that was is left out. -/
theorem Backed.held {block : List Effect} {gathered : Fired} (backed : Backed env notifier block gathered) {effects : List Effect}
    {result : Doc} (silent : ∀ fields, ¬Answered effects (.json (.dict fields))) (held : ¬Delivered result) :
    Backed env notifier (block ++ effects) { gathered with fired := gathered.fired ++ [result] } where
  live := by
    rintro ⟨delivery, among, delivered⟩
    rcases List.mem_append.mp among with before | last
    · obtain ⟨body, answered⟩ := backed.live ⟨delivery, before, delivered⟩
      exact ⟨body, answered.mono effects⟩
    · rw [List.mem_singleton.mp last] at delivered
      exact absurd delivered held
  answered := by
    rintro fields ⟨request, code, answered⟩
    rcases List.mem_append.mp answered with before | now
    · obtain ⟨delivery, among, delivered⟩ := backed.answered fields ⟨request, code, before⟩
      exact ⟨delivery, List.mem_append_left _ among, delivered⟩
    · exact absurd ⟨request, code, now⟩ (silent fields)
  artifacts key value found := (backed.artifacts key value found).mono effects
  primary := backed.primary.imp_right fun traced => traced.mono effects

/-- A delivery adds what its destination has reported. -/
theorem Backed.fired {block : List Effect} {gathered later : Fired} (backed : Backed env notifier block gathered)
    {effects : List Effect} {result : Doc} {body : Body} {detail : List (String × Value)} (answered : Answered effects body)
    (delivered : Delivered result) (fired : later.fired = gathered.fired ++ [result])
    (url : Doc.get result "artifact_url" = .none ∨ Names env body (Doc.get result "artifact_url"))
    (ticket : Ticketed env notifier body (Doc.get (Dict.ofList detail) "ticket_id"))
    (artifacts : ∀ key value, later.artifacts.get? key = some value → gathered.artifacts.get? key = some value ∨
      value = Doc.get result "artifact_url" ∧ value.truthy = true ∨
      value = Doc.get (Dict.ofList detail) "ticket_id" ∧ value.truthy = true)
    (primary : later.primary = gathered.primary ∨ later.primary = Doc.get result "artifact_url" ∨
      later.primary = Doc.get (Dict.ofList detail) "ticket_id") :
    Backed env notifier (block ++ effects) later := by
  obtain ⟨request, code, sent⟩ := answered
  have now : Answered (block ++ effects) body := ⟨request, code, List.mem_append_right _ sent⟩
  have among : result ∈ later.fired := by
    rw [fired]
    exact List.mem_append_right _ List.mem_cons_self
  have url := Ticketed.traced (url.imp_right Or.inl : Ticketed env notifier body _) now
  have ticket := ticket.traced now
  have truthful : ∀ value : Value, value.truthy = true → value = .none ∨ Traced env notifier (block ++ effects) value →
      Traced env notifier (block ++ effects) value := by
    intro value truthy known
    rcases known with none | traced
    · rw [none] at truthy
      exact absurd truthy (by decide)
    · exact traced
  constructor
  · exact fun _ => ⟨body, now⟩
  · exact fun _ _ => ⟨result, among, delivered⟩
  · intro key value found
    rcases artifacts key value found with before | ⟨rfl, truthy⟩ | ⟨rfl, truthy⟩
    · exact (backed.artifacts key value before).mono effects
    · exact truthful _ truthy url
    · exact truthful _ truthy ticket
  · rcases primary with same | same | same
    · rw [same]
      exact backed.primary.imp_right fun traced => traced.mono effects
    · rw [same]
      exact url
    · rw [same]
      exact ticket

/-- A turn leaves the record backed by what has happened, its own effects included. -/
theorem Turned.backed {name : String} {gathered later : Fired} {world final : World} {block : List Effect}
    (turned : Turned env notifier router incident domain name gathered world later final) (backed : Backed env notifier block gathered) :
    ∃ effects, final.log = world.log ++ effects ∧ Backed env notifier (block ++ effects) later := by
  have silent : ∀ fields, ¬Answered [] (.json (.dict fields)) := fun _ ⟨_, _, never⟩ => by cases never
  cases turned with
  | unknown => exact ⟨[], (List.append_nil _).symm, backed.held silent (unknownEntry_held name)⟩
  | declined =>
    refine ⟨[], (List.append_nil _).symm, ?_⟩
    rwa [List.append_nil]
  | illegible => exact ⟨[], (List.append_nil _).symm, backed.held silent (raisedEntry_held name _)⟩
  | @acted handler verdict middle effects result _ found able checks fires named gathers =>
    obtain ⟨quiet, logged, unasked⟩ := checks.quiet
    refine ⟨quiet ++ effects, ?_, ?_⟩
    · rw [World.append, logged, List.append_assoc]
    -- what the destinations have answered, they have answered to the handler's own request
    have asked : ∀ {body}, Answered (quiet ++ effects) body → Answered effects body := by
      rintro body ⟨request, code, answered⟩
      rcases List.mem_append.mp answered with before | now
      · exact absurd before (unasked _ _)
      · exact ⟨request, code, now⟩
    generalize verdict.allowed = allowed at fires
    cases fires with
    | held status other =>
      have held : ¬Delivered result := by
        rintro ⟨fired, _⟩
        rw [status] at fired
        exact other (Option.some.inj fired)
      rw [gather_held held] at gathers
      cases gathers
      refine backed.held (fun fields answered => ?_) held
      obtain ⟨_, _, never⟩ := asked answered
      cases never
    | failed refused status =>
      have held : ¬Delivered result := by
        rintro ⟨fired, _⟩
        rw [status] at fired
        exact absurd fired (by decide)
      rw [gather_held held] at gathers
      cases gathers
      refine backed.held (fun fields answered => ?_) held
      obtain ⟨_, code, own⟩ := asked answered
      cases List.mem_singleton.mp own
      exact refused code fields rfl
    | @fired request code body _ detail status synthetic url described ticket =>
      have delivered : Delivered result := by
        refine ⟨?_, ?_⟩
        · rw [status]
          rfl
        · rw [synthetic]
          decide
      have given : (Doc.get result "detail").or (.dict []) = .dict detail := by
        rw [described]
        exact Value.dict_or detail
      obtain ⟨added, gathers_, fired, artifacts, primary⟩ :
          ∃ added, Router.gather name result gathered = .ok added ∧ _ := gather_fired delivered given
      cases gathers.symm.trans gathers_
      exact backed.fired ⟨request, code, List.mem_append_right _ List.mem_cons_self⟩ delivered fired url ticket artifacts primary

/-- The names of the limiter checks, as the handlers have them. -/
def kinds (block : List Effect) : List String :=
  block.filterMap fun
    | .checked ⟨_, .check _ _ kind⟩ _ => some kind
    | _ => none

theorem Checks.kinds {kind : String} {world middle : World} {verdict : Verdict}
    (checks : Checks notifier kind world verdict middle) :
    ∃ effects, middle.log = world.log ++ effects ∧ Agent.kinds effects = [kind] := by
  obtain ⟨answered, entered, now, verdict, state, rfl, _, _⟩ := checks
  refine ⟨_, rfl, ?_⟩
  have others : (answered.map fun entry => Effect.elsewhere entry.1 entry.2).filterMap (fun
      | .checked ⟨_, .check _ _ kind⟩ _ => some kind
      | _ => none) = [] := by
    rw [List.filterMap_map]
    exact List.filterMap_eq_nil_iff.mpr fun _ _ => rfl
  unfold Agent.kinds audit
  rw [List.filterMap_append, others]
  split <;> rfl

theorem Fires.kinds {allowed : Bool} {effects : List Effect} {result : Doc} (fires : Fires env notifier allowed effects result) :
    Agent.kinds effects = [] := by
  cases fires <;> rfl

/-- The handler says that it takes the domain. -/
def Handler.accepts (handler : Handler) (domain : String) : Bool :=
  match handler.canHandle domain with
  | .ok able => able
  | .error _ => false

/-- The name has a handler that takes the domain. -/
def Router.acts (router : Router) (domain name : String) : Bool :=
  (router.registry.get? name).any fun handler => handler.accepts domain

/-- The name has a turn: it is not registered, or its handler takes the domain. -/
def Router.turns (router : Router) (domain name : String) : Bool :=
  (router.registry.get? name).all fun handler => handler.accepts domain

/-- Each turn is one entry under its name, and one check if a handler acts, which it does unless
it cannot print the incident. -/
theorem Turned.accounts {name : String} {gathered later : Fired} {world final : World}
    (named : ∀ name handler, router.registry.get? name = some handler → handler.name = name)
    (turned : Turned env notifier router incident domain name gathered world later final) :
    ∃ effects, final.log = world.log ++ effects ∧
      (Legible env incident → kinds effects = [name].filter (router.acts domain)) ∧
      later.fired.map (Doc.get · "handler") =
        gathered.fired.map (Doc.get · "handler") ++ ([name].filter (router.turns domain)).map .str := by
  rw [List.filter_singleton, List.filter_singleton]
  unfold Router.acts Router.turns Handler.accepts
  cases turned with
  | unknown missing =>
    rw [missing, List.map_append]
    refine ⟨[], (List.append_nil _).symm, fun _ => rfl, ?_⟩
    simp [Router.unknownEntry, get_ofList, List.lookup_cons]
  | declined found declined =>
    rw [found, Option.any_some, Option.all_some, declined]
    exact ⟨[], (List.append_nil _).symm, fun _ => rfl, (List.append_nil _).symm⟩
  | illegible found able illegible =>
    rw [found, Option.all_some, able, List.map_append]
    refine ⟨[], (List.append_nil _).symm, fun legible => absurd legible illegible, ?_⟩
    simp [Router.raisedEntry, get_ofList, List.lookup_cons]
  | @acted handler verdict middle effects result _ found able checks fires told gathers =>
    obtain ⟨quiet, logged, checked⟩ := checks.kinds
    rw [named name handler found] at told checked
    rw [found, Option.any_some, Option.all_some, able]
    refine ⟨quiet ++ effects, ?_, fun _ => ?_, ?_⟩
    · rw [World.append, logged, List.append_assoc]
    · have both : kinds (quiet ++ effects) = kinds quiet ++ kinds effects := List.filterMap_append
      rw [both, checked, fires.kinds]
      rfl
    · have grown : later.fired = gathered.fired ++ [result] := by
        by_cases delivered : Delivered result
        · obtain ⟨detail, given⟩ := fires.described delivered
          obtain ⟨added, same, fired, _⟩ : ∃ added, Router.gather name result gathered = .ok added ∧ _ :=
            gather_fired delivered given
          cases gathers.symm.trans same
          exact fired
        · rw [gather_held delivered] at gathers
          cases gathers
          rfl
      rw [grown, List.map_append, List.map_singleton, told]
      rfl

theorem route_accounts (stock : ∀ name handler, router.registry.get? name = some handler → Stock env notifier handler)
    (named : ∀ name handler, router.registry.get? name = some handler → handler.name = name) {found : String × List String}
    (classified : router.domainsOf incident = .ok found) (world : World) :
    ∃ record final block, router.route env incident world = .ok record final ∧ final.log = world.log ++ block ∧
      (record.domain, record.domains) = found ∧ record.route = router.routeFor env world.log record.domain ∧
      (Legible env incident → kinds block = record.route.filter (router.acts record.domain)) ∧
      record.handlers.map (Doc.get · "handler") = (record.route.filter (router.turns record.domain)).map .str := by
  let Kept (before : List String) (gathered : Fired) (reached : World) : Prop :=
    ∃ block, reached.log = world.log ++ block ∧ (Legible env incident → kinds block = before.filter (router.acts found.1)) ∧
      gathered.fired.map (Doc.get · "handler") = (before.filter (router.turns found.1)).map .str
  have step : ∀ before name gathered reached, Kept before gathered reached → ∃ later final,
      router.fire env incident found.1 gathered name reached = .ok later final ∧ Kept (before ++ [name]) later final := by
    rintro before name gathered reached ⟨block, logged, checked, entered⟩
    obtain ⟨later, final, ran, turned⟩ := fire_turned stock name gathered reached
    obtain ⟨effects, further, checks, entries⟩ := turned.accounts named
    refine ⟨later, final, ran, block ++ effects, ?_, fun legible => ?_, ?_⟩
    · rw [further, logged, List.append_assoc]
    · have both : kinds (block ++ effects) = kinds block ++ kinds effects := List.filterMap_append
      rw [both, checked legible, checks legible, List.filter_append]
    · rw [entries, entered, List.filter_append, List.map_append]
  have start : Kept [] {} world := ⟨[], (List.append_nil _).symm, fun _ => rfl, rfl⟩
  obtain ⟨gathered, final, routed, block, logged, checked, entered⟩ := route_keeps Kept classified world step start
  exact ⟨_, final, block, routed, logged, rfl, rfl, checked, entered⟩

section Usual
variable {channel priority : String} {classifier : Classifier}

theorem usual_handles (domain : String) :
    (usual env notifier channel priority classifier).acts domain "alert" = decide (domain ∈ alertDomains) ∧
      (usual env notifier channel priority classifier).turns domain "alert" = decide (domain ∈ alertDomains) ∧
      (usual env notifier channel priority classifier).acts domain "ticket" = true ∧
      (usual env notifier channel priority classifier).turns domain "ticket" = true := by
  have alert : (usual env notifier channel priority classifier).registry.get? "alert" =
      some (alertHandler env notifier alertDomains channel) := by
    simp [usual, Router.register, Dict.get?_ofList, List.lookup_cons, alertHandler, ticketHandler]
  have ticket : (usual env notifier channel priority classifier).registry.get? "ticket" =
      some (ticketHandler env notifier priority) := by
    simp [usual, Router.register, Dict.get?_ofList, alertHandler, ticketHandler]
  unfold Router.acts Router.turns
  rw [alert, ticket]
  exact ⟨rfl, rfl, rfl, rfl⟩

theorem routeFor_unset {log : List Effect} (unset : env.getenv log (router.envPrefix ++ "_ROUTING_" ++ env.upper domain) = none) :
    router.routeFor env log domain =
      (router.routing.get? domain).getD ((router.routing.get? domainUnknown).getD ["ticket"]) := by
  simp [Router.routeFor, unset]

theorem get?_defaultRouting (domain : String) :
    (defaultRouting.get? domain).getD ((defaultRouting.get? domainUnknown).getD ["ticket"]) =
      if domain ∈ alertDomains then ["alert", "ticket"] else ["ticket"] := by
  by_cases known : domain ∈ [domainFinance, domainInfra, domainDataQuality, domainSecurity, domainUnknown]
  · simp only [List.mem_cons, List.not_mem_nil, or_false] at known
    rcases known with rfl | rfl | rfl | rfl | rfl <;> decide
  · have missing : defaultRouting.get? domain = none := by
      rw [Option.eq_none_iff_forall_ne_some]
      intro names found
      exact known (List.mem_map_of_mem (f := Prod.fst) (Dict.mem_of_ofList found))
    have quiet : domain ∉ alertDomains := by
      intro alerted
      simp only [alertDomains, List.mem_cons, List.not_mem_nil, or_false] at alerted
      rcases alerted with rfl | rfl <;> exact known (by decide)
    rw [missing, if_neg quiet]
    decide

theorem usual_route (unset : ∀ log domain, env.getenv log ("AGENT_ROUTING_" ++ env.upper domain) = none)
    (log : List Effect) (domain : String) :
    (usual env notifier channel priority classifier).routeFor env log domain =
      if domain ∈ alertDomains then ["alert", "ticket"] else ["ticket"] :=
  (routeFor_unset (unset log domain)).trans (get?_defaultRouting domain)

end Usual

/-- An incident always leaves a paper trail. With the default routing, and no variable that
overrides it, every incident that the classifier answers for is ticketed and every finance or
security incident alerted on too: each routed handler has its entry in the record, in the order
of the route, and asks the limiter once, unless a number in the incident is too long to print. -/
theorem paper_trail (notifier : Notifier) (channel priority : String) (classifier : Classifier)
    (unset : ∀ log domain, env.getenv log ("AGENT_ROUTING_" ++ env.upper domain) = none) {found : String × List String}
    (classified : (usual env notifier channel priority classifier).domainsOf incident = .ok found) (world : World) :
    ∃ record final block, (usual env notifier channel priority classifier).route env incident world = .ok record final ∧
      final.log = world.log ++ block ∧ (record.domain, record.domains) = found ∧
      "ticket" ∈ record.route ∧ (record.domain ∈ alertDomains → "alert" ∈ record.route) ∧
      record.handlers.map (Doc.get · "handler") = record.route.map .str ∧
      (Legible env incident → kinds block = record.route) := by
  obtain ⟨record, final, block, routed, logged, known, followed, checked, entered⟩ :=
    route_accounts (fun _ _ found => usual_stock found) (fun _ _ found => (registered found).2) classified world
  rw [usual_route unset] at followed
  obtain ⟨alertActs, alertTurns, ticketActs, ticketTurns⟩ := usual_handles record.domain
  have whole : ∀ acts : String → Bool, acts "alert" = decide (record.domain ∈ alertDomains) → acts "ticket" = true →
      record.route.filter acts = record.route := by
    intro acts alert ticket
    rw [followed]
    split
    next alerted => simp [alert, alerted, ticket]
    next => simp [ticket]
  refine ⟨record, final, block, routed, logged, known, ?_, fun alerted => ?_, ?_, fun legible => ?_⟩
  · rw [followed]
    split <;> simp
  · rw [followed, if_pos alerted]
    exact List.mem_cons_self
  · rw [entered]
    rw [whole _ alertTurns ticketTurns]
  · rw [checked legible]
    exact whole _ alertActs ticketActs

theorem paper_trail_office : ∃ record final block,
    (usual office desk "#ops" "P1" till).route office outage {} = .ok record final ∧ final.log = [] ++ block ∧
      record.domain = domainFinance ∧ "ticket" ∈ record.route ∧ "alert" ∈ record.route ∧
      record.handlers.map (Doc.get · "handler") = record.route.map .str ∧ kinds block = record.route := by
  obtain ⟨record, final, block, routed, logged, known, ticketed, alerted, entered, checked⟩ :=
    paper_trail desk "#ops" "P1" till (fun _ _ => rfl) classified_outage {}
  have finance : record.domain = domainFinance := congrArg Prod.fst known
  have legible : Legible office outage := by
    unfold Legible
    decide +kernel
  exact ⟨record, final, block, routed, logged, finance, ticketed, alerted (finance ▸ by decide), entered, checked legible⟩

end Honesty
end NearRewards.Agent
