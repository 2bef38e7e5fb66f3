import NearRewards.Library.Permit
import NearRewards.Proofs.Cycles
import NearRewards.Proofs.Router

/-! Everything that leaves the process. Whatever an application does with its notifier, and
whatever other threads do at the limiter meanwhile, each request has a check of its own that
allowed it, so that the limiter's caps are caps on the requests, and the audit trail has the
outcome of every check. -/

namespace NearRewards.Agent
open EStateM (bind_apply tryCatch_apply)
open ActionLimiter SlidingWindow

/-- What the limiter has been asked, and what it has answered. -/
def history (log : List Effect) : List (Turn × Option Verdict) :=
  log.filterMap fun
    | .checked turn verdict => some (turn, some verdict)
    | .elsewhere turn answer => some (turn, answer)
    | _ => none

theorem history_append (log block : List Effect) : history (log ++ block) = history log ++ history block := List.filterMap_append

/-- The turns at the limiter. -/
def turnsOf (log : List Effect) : List Turn := (history log).map Prod.fst

/-- A check that allows is the permission for one request. -/
def sign : Effect → Permit.Sign (Arrival String)
  | .checked turn verdict => .settle ((arrival? (turn, some verdict)).filter (·.admitted))
  | .requested _ _ => .use
  | _ => .pass

/-- The checks that have allowed the requests, in the order of the requests. -/
def licences (log : List Effect) : List (Arrival String) := (Permit.watch sign log).used

/-- The requests of a log. -/
def requests (log : List Effect) : List Request :=
  log.filterMap fun
    | .requested request _ => some request
    | _ => none

theorem length_requests (log : List Effect) : (requests log).length = Permit.uses sign log := by
  unfold requests Permit.uses
  rw [List.length_filterMap_eq_countP]
  refine List.countP_congr fun effect _ => ?_
  cases effect <;> simp [sign]

/-- A permission is one of the limiter's. -/
theorem granted_sublist (log : List Effect) :
    List.Sublist (Permit.granted sign log) ((arrivals (history log)).filter (·.admitted)) := by
  induction log with
  | nil => exact List.Sublist.slnil
  | cons effect log ih =>
    rw [← List.singleton_append, Permit.granted_append, history_append]
    unfold arrivals
    rw [List.filterMap_append, List.filter_append]
    refine List.Sublist.append ?_ ih
    cases effect with
    | checked turn verdict =>
      unfold Permit.granted history
      simp only [List.filterMap_cons, List.filterMap_nil, sign]
      cases arrival? (turn, some verdict) with
      | none => exact List.Sublist.slnil
      | some arrival =>
        cases admitted : arrival.admitted <;> simp [admitted, Option.filter]
    | _ => exact List.nil_sublist _

theorem licences_sublist (log : List Effect) :
    List.Sublist (licences log) ((arrivals (history log)).filter (·.admitted)) :=
  ((List.sublist_append_left _ _).trans (Permit.used_sublist log)).trans (granted_sublist log)

/-- The entries of the audit trail. -/
def recordings (log : List Effect) : List (String × String × String) :=
  log.filterMap fun
    | .recorded name outcome detail => some (name, outcome, detail)
    | _ => none

/-- What the audit trail should say of the checks. -/
def outcomes (log : List Effect) : List (String × String × String) :=
  log.filterMap fun
    | .checked ⟨_, .check _ _ kind⟩ verdict =>
      some ("ACTION_LIMITER", if verdict.allowed then "allowed" else "blocked", kind ++ ": " ++ verdict.reason)
    | _ => none

theorem recordings_append (log block : List Effect) : recordings (log ++ block) = recordings log ++ recordings block :=
  List.filterMap_append

theorem outcomes_append (log block : List Effect) : outcomes (log ++ block) = outcomes log ++ outcomes block :=
  List.filterMap_append

/-- The log is the limiter's own story, each request in it has its permission, and each check its entry. -/
structure Supervised (notifier : Notifier) (world : World) : Prop where
  traced : (limiter notifier.policy).trace (limiter notifier.policy).init (turnsOf world.log) = history world.log
  reached : (limiter notifier.policy).after (limiter notifier.policy).init (turnsOf world.log) = world.limiter
  licensed : (Permit.watch sign world.log).strays = 0
  audited : notifier.recorder = true → recordings world.log = outcomes world.log

section Supervision
variable {env : Environment} {notifier : Notifier} {kind : String} {world middle : World} {verdict : Verdict}

/-- What a check leaves in the log. -/
def checkedLog (notifier : Notifier) (kind : String) (answered : List (Turn × Option Verdict)) (turn : Turn)
    (verdict : Verdict) : List Effect :=
  answered.map (fun entry => .elsewhere entry.1 entry.2) ++ .checked turn verdict :: audit notifier kind verdict

theorem history_checkedLog (answered : List (Turn × Option Verdict)) (turn : Turn) :
    history (checkedLog notifier kind answered turn verdict) = answered ++ [(turn, some verdict)] := by
  have others : history (answered.map fun entry => .elsewhere entry.1 entry.2) = answered := by
    unfold history
    rw [List.filterMap_map]
    exact List.filterMap_some
  unfold checkedLog audit
  rw [history_append, others]
  split <;> rfl

/-- Only the check itself matters to whoever watches. -/
theorem watch_checkedLog (log : List Effect) (answered : List (Turn × Option Verdict)) (turn : Turn) :
    Permit.watch sign (log ++ checkedLog notifier kind answered turn verdict) =
      Permit.see (Permit.watch sign log) (sign (.checked turn verdict)) := by
  have others : ∀ effect ∈ answered.map (fun entry => Effect.elsewhere entry.1 entry.2), sign effect = .pass := by
    intro effect member
    obtain ⟨entry, _, rfl⟩ := List.mem_map.mp member
    rfl
  have recorded : ∀ effect ∈ audit notifier kind verdict, sign effect = .pass := by
    unfold audit
    split
    · intro effect member
      rw [List.mem_singleton.mp member]
      rfl
    · intro effect member
      cases member
  unfold checkedLog
  rw [← List.append_assoc, ← List.singleton_append, ← List.append_assoc, Permit.watch_pass recorded, Permit.watch_concat,
    Permit.watch_pass others]

theorem recordings_checkedLog (recorder : notifier.recorder = true) (answered : List (Turn × Option Verdict))
    (entered now : Instant) (runId : String) :
    recordings (checkedLog notifier kind answered ⟨entered, .check now runId kind⟩ verdict) =
      outcomes (checkedLog notifier kind answered ⟨entered, .check now runId kind⟩ verdict) := by
  have silent : recordings (answered.map fun entry => .elsewhere entry.1 entry.2) = [] ∧
      outcomes (answered.map fun entry => .elsewhere entry.1 entry.2) = [] := by
    unfold recordings outcomes
    rw [List.filterMap_map, List.filterMap_map]
    exact ⟨List.filterMap_eq_nil_iff.mpr fun _ _ => rfl, List.filterMap_eq_nil_iff.mpr fun _ _ => rfl⟩
  unfold checkedLog audit
  rw [if_pos recorder, recordings_append, outcomes_append, silent.1, silent.2]
  rfl

theorem Checks.supervised (checks : Checks notifier kind world verdict middle) (supervised : Supervised notifier world) :
    Supervised notifier middle ∧ (verdict.allowed = true → (Permit.watch sign middle.log).current ≠ none) := by
  obtain ⟨answered, entered, now, verdict, state, own, traced, reached⟩ := checks
  rename_i turn
  change Supervised notifier ⟨state, world.runId, world.log ++ checkedLog notifier kind answered turn verdict⟩ ∧
    (_ → (Permit.watch sign (world.log ++ checkedLog notifier kind answered turn verdict)).current ≠ none)
  have turns : turnsOf (world.log ++ checkedLog notifier kind answered turn verdict) =
      turnsOf world.log ++ (answered ++ [(turn, some verdict)]).map Prod.fst := by
    unfold turnsOf
    rw [history_append, history_checkedLog, List.map_append]
  refine ⟨⟨?_, ?_, ?_, ?_⟩, ?_⟩
  · rw [turns, Machine.trace_append, supervised.traced, supervised.reached, traced, history_append, history_checkedLog]
  · rw [turns, Machine.after_append, supervised.reached, reached]
  · rw [watch_checkedLog]
    exact supervised.licensed
  · intro recorder
    subst own
    rw [recordings_append, outcomes_append, supervised.audited recorder, recordings_checkedLog recorder]
  · intro allowed
    rw [watch_checkedLog, own]
    simp [sign, arrival?, Permit.see, allowed, Option.filter]

/-- A request comes only after a check that allows it, with nothing of the kind in between. -/
theorem Supervised.act {effects : List Effect} (supervised : Supervised notifier world)
    (checks : Checks notifier kind world verdict middle)
    (sends : effects = [] ∨ verdict.allowed = true ∧ ∃ request reply, effects = [.requested request reply]) :
    Supervised notifier (middle.append effects) := by
  obtain ⟨kept, granted⟩ := checks.supervised supervised
  rcases sends with rfl | ⟨allowed, request, reply, rfl⟩
  · rwa [World.append_nil]
  · have open_ := granted allowed
    obtain ⟨licence, current⟩ := Option.ne_none_iff_exists'.mp open_
    have turns : turnsOf (middle.log ++ [.requested request reply]) = turnsOf middle.log := by
      unfold turnsOf
      rw [history_append]
      exact congrArg _ (List.append_nil _)
    refine ⟨?_, ?_, ?_, ?_⟩
    · dsimp only [World.append]
      rw [turns, kept.traced, history_append]
      exact (List.append_nil _).symm
    · dsimp only [World.append]
      rw [turns]
      exact kept.reached
    · dsimp only [World.append]
      rw [Permit.watch_concat]
      change (Permit.see _ .use).strays = 0
      unfold Permit.see
      rw [current]
      exact kept.licensed
    · intro recorder
      dsimp only [World.append]
      rw [recordings_append, outcomes_append, kept.audited recorder]
      rfl

theorem Sends.sent {delivered : String} {allowed : Bool} {effects : List Effect} {result : Doc}
    (sends : Sends env notifier delivered allowed effects result) :
    effects = [] ∨ allowed = true ∧ ∃ request reply, effects = [.requested request reply] := by
  cases sends with
  | suppressed => exact Or.inl rfl
  | logged => exact Or.inl rfl
  | unsent => exact Or.inl rfl
  | failed => exact Or.inr ⟨rfl, _, _, rfl⟩
  | delivered => exact Or.inr ⟨rfl, _, _, rfl⟩

theorem Fires.sent {allowed : Bool} {effects : List Effect} {result : Doc} (fires : Fires env notifier allowed effects result) :
    effects = [] ∨ allowed = true ∧ ∃ request reply, effects = [.requested request reply] := by
  cases fires with
  | held => exact Or.inl rfl
  | failed => exact Or.inr ⟨rfl, _, _, rfl⟩
  | fired => exact Or.inr ⟨rfl, _, _, rfl⟩

theorem Turned.supervised {router : Router} {incident : Doc} {domain name : String} {gathered later : Fired} {final : World}
    (turned : Turned env notifier router incident domain name gathered world later final)
    (supervised : Supervised notifier world) :
    Supervised notifier final := by
  cases turned with
  | unknown => exact supervised
  | declined => exact supervised
  | illegible => exact supervised
  | acted _ _ checks fires _ _ => exact supervised.act checks fires.sent

end Supervision
section Work
variable {env : Environment} {notifier : Notifier}

/-- A job, with no handlers but those that come with the router. -/
inductive Standard (env : Environment) (notifier : Notifier) : Job → Prop where
  | bindRun (runId) : Standard env notifier (.bindRun runId)
  | alert (channel title message severity) : Standard env notifier (.alert channel title message severity)
  | ticket (summary description priority assignee) : Standard env notifier (.ticket summary description priority assignee)
  | route {router} (stock : ∀ name handler, router.registry.get? name = some handler → Stock env notifier handler)
      (incident) : Standard env notifier (.route router incident)

/-- A route raises only where its classifier does. -/
theorem route_supervised {router : Router} (stock : ∀ name handler, router.registry.get? name = some handler → Stock env notifier handler)
    (incident : Doc) {world : World} (supervised : Supervised notifier world) :
    (∃ raised, router.domainsOf incident = .error raised ∧ router.route env incident world = .error raised world) ∨
      ∃ record final, router.route env incident world = .ok record final ∧ Supervised notifier final := by
  cases classified : router.domainsOf incident with
  | error raised =>
    refine Or.inl ⟨raised, rfl, ?_⟩
    unfold Router.route
    rw [bind_apply, attempt_apply, classified]
  | ok found =>
    have step : ∀ (_ : List String) name gathered reached, Supervised notifier reached → ∃ later final,
        router.fire env incident found.1 gathered name reached = .ok later final ∧ Supervised notifier final := by
      intro _ name gathered reached kept
      obtain ⟨later, final, ran, turned⟩ := fire_turned stock name gathered reached
      exact ⟨later, final, ran, turned.supervised kept⟩
    obtain ⟨gathered, final, routed, kept⟩ :=
      route_keeps (fun _ _ reached => Supervised notifier reached) classified world step supervised
    exact Or.inr ⟨_, final, routed, kept⟩

theorem Standard.supervised {job : Job} (standard : Standard env notifier job) {world : World}
    (supervised : Supervised notifier world) :
    ∃ final, (tryCatch (job.perform env notifier) fun _ => pure ()) world = .ok () final ∧ Supervised notifier final := by
  rw [tryCatch_apply]
  cases standard with
  | bindRun runId =>
    exact ⟨_, rfl, supervised.traced, supervised.reached, supervised.licensed, supervised.audited⟩
  | alert channel title message severity =>
    obtain ⟨result, _, ran, verdict, middle, effects, checks, rfl, sends⟩ :=
      sendAlert_acts env notifier channel title message severity world
    refine ⟨_, ?_, supervised.act checks sends.sent⟩
    dsimp only [Job.perform]
    rw [bind_apply, ran]
    rfl
  | ticket summary description priority assignee =>
    obtain ⟨result, _, ran, verdict, middle, effects, checks, rfl, sends⟩ :=
      openTicket_acts env notifier summary description priority assignee world
    refine ⟨_, ?_, supervised.act checks sends.sent⟩
    dsimp only [Job.perform]
    rw [bind_apply, ran]
    rfl
  | route stock incident =>
    dsimp only [Job.perform]
    rw [bind_apply]
    rcases route_supervised stock incident supervised with ⟨raised, _, routed⟩ | ⟨record, final, routed, kept⟩
    · rw [routed]
      exact ⟨world, rfl, supervised⟩
    · rw [routed]
      exact ⟨final, rfl, kept⟩

theorem work_supervised (jobs : List Job) (standard : ∀ job ∈ jobs, Standard env notifier job) {world : World}
    (supervised : Supervised notifier world) :
    ∃ final, work env notifier jobs world = .ok () final ∧ Supervised notifier final := by
  induction jobs generalizing world with
  | nil => exact ⟨world, rfl, supervised⟩
  | cons job jobs ih =>
    obtain ⟨middle, performed, kept⟩ := (standard job List.mem_cons_self).supervised supervised
    obtain ⟨final, worked, ended⟩ := ih (fun later member => standard later (List.mem_cons_of_mem _ member)) kept
    refine ⟨final, ?_, ended⟩
    unfold work
    rw [bind_apply, performed]
    exact worked

theorem supervised_init : Supervised notifier {} := ⟨rfl, rfl, rfl, fun _ => rfl⟩

/-- A run's outage is routed, and then somebody asks for an alert. -/
def shift (notifier : Notifier) : List Job :=
  [.bindRun "run-1", .route (usual office notifier "#ops" "P1" till) outage,
    .alert "#ops" (.str "Still down") "No orders." "warning"]

theorem standard_shift (notifier : Notifier) : ∀ job ∈ shift notifier, Standard office notifier job := by
  intro job member
  simp only [shift, List.mem_cons, List.not_mem_nil, or_false] at member
  rcases member with rfl | rfl | rfl
  · exact .bindRun _
  · exact .route (fun _ _ found => usual_stock found) outage
  · exact .alert _ _ _ _

/-- What the shift leaves behind. -/
def shifted : World :=
  match work office desk (shift desk) {} with
  | .ok _ final => final
  | .error _ final => final

theorem shifted_eq {final : World} (worked : work office desk (shift desk) {} = .ok () final) : shifted = final := by
  unfold shifted
  rw [worked]

theorem turnsOf_shifted : turnsOf shifted.log = [⟨0, .check 0 "run-1" "alert"⟩,
    ⟨2 * second, .check (2 * second) "run-1" "ticket"⟩, ⟨5 * second, .check (5 * second) "run-1" "alert"⟩] := by decide +kernel

theorem prompt_shifted : Prompt 0 (turnsOf shifted.log) := by
  rw [turnsOf_shifted]
  refine ⟨by decide +kernel, ?_⟩
  simp

/-- Every request that leaves the process has an allowed check of its own, whatever the jobs
are, whatever the destinations answer, and whatever other threads do at the limiter. The
requests checked in any stretch of an hour less the lag of the clock readings are no more than
the hourly cap, and on a dry run nothing leaves at all. -/
theorem requests_capped (jobs : List Job) (standard : ∀ job ∈ jobs, Standard env notifier job) :
    ∃ final, work env notifier jobs {} = .ok () final ∧
      (licences final.log).length = (requests final.log).length ∧
      List.Sublist (licences final.log) ((arrivals (history final.log)).filter (·.admitted)) ∧
      (∀ lag, Prompt lag (turnsOf final.log) → ∀ start,
        (within start (start + (cycleTtl - lag)) (licences final.log)).length ≤ notifier.policy.maxActionsPerHour.toNat) ∧
      (notifier.policy.dryRun = true → requests final.log = []) := by
  obtain ⟨final, worked, supervised⟩ := work_supervised jobs standard supervised_init
  have counted : (licences final.log).length = (requests final.log).length := by
    rw [length_requests, Permit.uses_eq, supervised.licensed]
    rfl
  have used := licences_sublist final.log
  have remembered := remembers notifier.policy (turnsOf final.log)
  rw [supervised.traced] at remembered
  refine ⟨final, worked, counted, used, fun lag prompt start => ?_, fun dry => ?_⟩
  · have punctual : Punctual lag (arrivals ((limiter notifier.policy).trace (limiter notifier.policy).init (turnsOf final.log))) :=
      prompt.punctual _
    rw [supervised.traced] at punctual
    refine le_trans (List.Sublist.length_le ?_) (length_within_le punctual remembered.capped start)
    exact (used.trans List.filter_sublist).filter _
  · have refused : (arrivals (history final.log)).filter (·.admitted) = [] := by
      rw [List.filter_eq_nil_iff]
      intro arrival member
      rw [(remembered.idle dry).2 arrival member]
      decide
    rw [refused] at used
    rw [List.sublist_nil.mp used] at counted
    exact List.length_eq_zero_iff.mp counted.symm

theorem requests_capped_shift :
    (work office desk (shift desk) {} = .ok () shifted ∧ (licences shifted.log).length = (requests shifted.log).length ∧
      List.Sublist (licences shifted.log) ((arrivals (history shifted.log)).filter (·.admitted)) ∧
      ∀ start, (within start (start + (cycleTtl - 0)) (licences shifted.log)).length ≤ 20) ∧
    ∃ final, work office { desk with policy := ⟨true, 4, 20⟩ } (shift { desk with policy := ⟨true, 4, 20⟩ }) {} = .ok () final ∧
      requests final.log = [] := by
  constructor
  · obtain ⟨final, worked, counted, used, capped, _⟩ := requests_capped (shift desk) (standard_shift desk)
    cases shifted_eq worked
    exact ⟨worked, counted, used, capped 0 prompt_shifted⟩
  · obtain ⟨final, worked, _, _, _, idle⟩ := requests_capped _ (standard_shift { desk with policy := ⟨true, 4, 20⟩ })
    exact ⟨final, worked, idle rfl⟩

/-- While the hourly cap keeps the table below half its ceiling and the readings lag by less than
twenty minutes, a run that acts at least once an hour and that nobody resets sends its cap of
requests and no more, however many threads act for it and whatever other runs do. -/
theorem run_requests_capped (jobs : List Job) (standard : ∀ job ∈ jobs, Standard env notifier job)
    (small : 2 * notifier.policy.maxActionsPerHour.toNat ≤ maxTrackedCycles) :
    ∃ final, work env notifier jobs {} = .ok () final ∧ ∀ lag runId, Prompt lag (turnsOf final.log) → 3 * lag < cycleTtl →
      (∀ turn ∈ turnsOf final.log, turn.operation ≠ .resetCycle runId) → Busy (acts runId (history final.log)) →
        ((licences final.log).filter fun licence => licence.source = runId).length ≤
          notifier.policy.maxActionsPerCycle.toNat := by
  obtain ⟨final, worked, supervised⟩ := work_supervised jobs standard supervised_init
  refine ⟨final, worked, fun lag runId prompt short unreset busy => ?_⟩
  have counted := counts notifier.policy (show Prompt lag ([] ++ turnsOf final.log) from prompt) short small unreset
  rw [Machine.after_nil, supervised.traced] at counted
  refine le_trans (List.Sublist.length_le ?_) (counted busy).within_cap
  have own := (licences_sublist final.log).filter fun licence => decide (licence.source = runId)
  rw [List.filter_filter] at own
  unfold acts
  simpa only [Bool.decide_and, Bool.decide_eq_true] using own

theorem run_requests_capped_shift : work office desk (shift desk) {} = .ok () shifted ∧
    ((licences shifted.log).filter fun licence => licence.source = "run-1").length ≤ 4 := by
  obtain ⟨final, worked, capped⟩ := run_requests_capped (shift desk) (standard_shift desk) (by decide)
  cases shifted_eq worked
  refine ⟨worked, capped 0 "run-1" prompt_shifted (by decide) ?_ (by decide +kernel)⟩
  rw [turnsOf_shifted]
  simp

/-- Nothing but checks and their outcomes goes into the audit trail, and no outcome is left out. -/
theorem audit_complete (recorder : notifier.recorder = true) (jobs : List Job)
    (standard : ∀ job ∈ jobs, Standard env notifier job) :
    ∃ final, work env notifier jobs {} = .ok () final ∧ recordings final.log = outcomes final.log := by
  obtain ⟨final, worked, supervised⟩ := work_supervised jobs standard supervised_init
  exact ⟨final, worked, supervised.audited recorder⟩

theorem audit_complete_shift : ∃ final, work office desk (shift desk) {} = .ok () final ∧ recordings final.log = outcomes final.log :=
  audit_complete rfl (shift desk) (standard_shift desk)

end Work
end NearRewards.Agent
