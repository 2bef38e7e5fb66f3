import NearRewards.Sinks

/-! What a sink does and what it says about it. It asks the limiter once, sends one request at
most and only if it may, and calls a result delivered only if the destination has answered. -/

namespace NearRewards.Agent
open EStateM (bind_apply tryCatch_apply)

theorem get_ofList (fields : List (String × Value)) (key : String) :
    Doc.get (Dict.ofList fields) key = (fields.reverse.lookup key).getD .none := by
  rw [Doc.get, Dict.get?_ofList]

def World.append (world : World) (effects : List Effect) : World := { world with log := world.log ++ effects }

@[simp] theorem World.append_nil (world : World) : world.append [] = world := by
  simp [World.append]

section Checks

/-- What the audit trail gets of a check. -/
def audit (notifier : Notifier) (kind : String) (verdict : Verdict) : List Effect :=
  if notifier.recorder then
    [.recorded "ACTION_LIMITER" (if verdict.allowed then "allowed" else "blocked") (kind ++ ": " ++ verdict.reason)]
  else []

/-- What a check does: other threads have their turns at the limiter, then it has its own. -/
inductive Checks (notifier : Notifier) (kind : String) (world : World) : Verdict → World → Prop where
  | turn {turn : Turn} (answered : List (Turn × Option Verdict)) (entered now : Instant) (verdict : Verdict)
      (state : ActionLimiter) (own : turn = ⟨entered, .check now world.runId kind⟩)
      (traced : (limiter notifier.policy).trace world.limiter ((answered ++ [(turn, some verdict)]).map Prod.fst) =
        answered ++ [(turn, some verdict)])
      (reached : (limiter notifier.policy).after world.limiter ((answered ++ [(turn, some verdict)]).map Prod.fst) = state) :
      Checks notifier kind world verdict ⟨state, world.runId, world.log ++
        (answered.map (fun entry => .elsewhere entry.1 entry.2) ++ .checked turn verdict :: audit notifier kind verdict)⟩

variable (env : Environment) (notifier : Notifier) (kind : String)

theorem foldl_yieldTo (policy : ActionPolicy) (turns : List Turn) (world : World) :
    turns.foldl (yieldTo policy) world =
      ⟨(limiter policy).after world.limiter turns, world.runId, world.log ++
        ((limiter policy).trace world.limiter turns).map fun entry => .elsewhere entry.1 entry.2⟩ := by
  induction turns generalizing world with
  | nil => simp
  | cons turn turns ih =>
    rw [List.foldl_cons, ih]
    simp [yieldTo]

theorem record_apply (name outcome detail : String) (world : World) :
    notifier.record name outcome detail world =
      .ok () (world.append (if notifier.recorder then [.recorded name outcome detail] else [])) := by
  unfold Notifier.record
  split
  · rfl
  · simp [World.append]

/-- The check by itself. -/
theorem limiterCheck_apply (world : World) :
    notifier.limiterCheck env kind world =
      let middle := (env.others world.log).foldl (yieldTo notifier.policy) world
      let turn : Turn := ⟨env.entered middle.log, .check (env.read middle.log) middle.runId kind⟩
      let (verdict, limiter) := middle.limiter.check notifier.policy (env.read middle.log) middle.runId kind
      .ok verdict ⟨limiter, middle.runId, middle.log ++ [.checked turn verdict]⟩ := rfl

/-- A check returns what the limiter has answered. -/
theorem allowed_checks (world : World) : ∃ verdict final,
    notifier.allowed env kind world = .ok (verdict.allowed, verdict.reason) final ∧ Checks notifier kind world verdict final := by
  have inputs := (limiter notifier.policy).trace_inputs world.limiter (env.others world.log)
  unfold Notifier.allowed
  rw [bind_apply, limiterCheck_apply, foldl_yieldTo]
  generalize answers : (limiter notifier.policy).trace world.limiter (env.others world.log) = answered at inputs ⊢
  dsimp only
  generalize entered : env.entered _ = time
  generalize read : env.read _ = now
  generalize ran : ((limiter notifier.policy).after world.limiter (env.others world.log)).check _ _ _ _ = result
  obtain ⟨verdict, state⟩ := result
  dsimp only
  rw [bind_apply, record_apply]
  refine ⟨verdict, _, rfl, ?_⟩
  have stepped : (limiter notifier.policy).step ((limiter notifier.policy).after world.limiter (env.others world.log))
      ⟨time, .check now world.runId kind⟩ = (some verdict, state) := by
    change (some (ActionLimiter.check _ _ _ _ _).1, (ActionLimiter.check _ _ _ _ _).2) = _
    rw [ran]
  have extended : (answered ++ [((⟨time, .check now world.runId kind⟩ : Turn), some verdict)]).map Prod.fst =
      env.others world.log ++ [⟨time, .check now world.runId kind⟩] := by
    rw [List.map_append, inputs]
    rfl
  have traced := Machine.trace_concat (limiter notifier.policy) world.limiter (env.others world.log)
    ⟨time, .check now world.runId kind⟩
  have reached := Machine.after_concat (limiter notifier.policy) world.limiter (env.others world.log)
    ⟨time, .check now world.runId kind⟩
  rw [stepped] at traced reached
  rw [answers, ← extended] at traced
  rw [← extended] at reached
  unfold World.append
  dsimp only
  rw [List.append_assoc, List.append_assoc]
  exact .turn answered time now verdict state rfl traced reached

end Checks

/-- The destination's answer names the value: it is a field of the JSON object it has answered
with, or the text of one, or the number of an issue. -/
inductive Names (env : Environment) : Body → Value → Prop where
  | url {fields key value} (known : key ∈ ["url", "html_url", "self"])
      (found : (Dict.ofList fields).get? key = some value) (real : value ≠ .none) :
      Names env (.json (.dict fields)) value
  | id {fields key value} (known : key ∈ ["ticket_id", "id", "key"])
      (found : (Dict.ofList fields).get? key = some value) (real : value ≠ .none) :
      Names env (.json (.dict fields)) (.str (value.shown env.repr))
  | number {fields value} (found : (Dict.ofList fields).get? "number" = some value) (real : value ≠ .none) :
      Names env (.json (.dict fields)) (.str ("#" ++ value.shown env.repr))

/-- Tickets are filed as GitHub issues. -/
def Notifier.FilesIssues (notifier : Notifier) : Prop :=
  notifier.settings.githubRepo ≠ "" ∧ notifier.settings.githubToken ≠ ""

/-- The issue it has filed has no number, and this is what it goes by. -/
inductive Unnumbered (notifier : Notifier) : Body → Value → Prop where
  | issue {fields} (files : notifier.FilesIssues) (missing : Doc.get (Dict.ofList fields) "number" = .none) :
      Unnumbered notifier (.json (.dict fields)) (.str "#None")

/-- A ticket's id: none, or what the destination calls it. -/
def Ticketed (env : Environment) (notifier : Notifier) (body : Body) (value : Value) : Prop :=
  value = .none ∨ Names env body value ∨ Unnumbered notifier body value

/-- What an action that may go ahead or not comes to: what it sends, and its result. -/
inductive Sends (env : Environment) (notifier : Notifier) (delivered : String) : Bool → List Effect → Doc → Prop where
  | suppressed {result} (status : result.get? "status" = some (.str "suppressed"))
      (synthetic : result.get? "synthetic" = some (.bool true)) : Sends env notifier delivered false [] result
  | logged {result} (status : result.get? "status" = some (.str "logged"))
      (synthetic : result.get? "synthetic" = some (.bool true)) : Sends env notifier delivered true [] result
  | unsent {result} (status : result.get? "status" = some (.str "error"))
      (synthetic : result.get? "synthetic" = some (.bool true)) : Sends env notifier delivered true [] result
  | failed {request reply result} (refused : ∀ code fields, reply ≠ .answered code (.json (.dict fields)))
      (status : result.get? "status" = some (.str "error")) (synthetic : result.get? "synthetic" = some (.bool true)) :
      Sends env notifier delivered true [.requested request reply] result
  | delivered {request code body result} (status : result.get? "status" = some (.str delivered))
      (synthetic : result.get? "synthetic" = some (.bool false))
      (url : Doc.get result "url" = .none ∨ Names env body (Doc.get result "url"))
      (ticket : Ticketed env notifier body (Doc.get result "ticket_id")) :
      Sends env notifier delivered true [.requested request (.answered code body)] result

/-- A guarded action: a check, and then what it comes to. -/
def Acts (env : Environment) (notifier : Notifier) (kind delivered : String) (world : World) (result : Doc)
    (final : World) : Prop :=
  ∃ verdict middle effects, Checks notifier kind world verdict middle ∧ final = middle.append effects ∧
    Sends env notifier delivered verdict.allowed effects result

section Answers
variable {env : Environment} {fields : List (String × Value)}

theorem text_of_legible {limit : ℕ} {repr : Value → String} {value : Value} (legible : value.legible limit = true) :
    value.text limit repr = .ok (value.shown repr) := if_pos legible

theorem legible_get {limit : ℕ} (legible : (Value.dict fields).legible limit = true) (key : String) :
    (Doc.get (Dict.ofList fields) key).legible limit = true := by
  unfold Doc.get
  cases found : (Dict.ofList fields).get? key with
  | none => rfl
  | some value => exact legible_of_mem legible (Dict.mem_of_ofList found)

theorem get?_of_real {doc : Doc} {key : String} (real : Doc.get doc key ≠ .none) : doc.get? key = some (Doc.get doc key) := by
  unfold Doc.get at real ⊢
  cases found : doc.get? key with
  | none =>
    rw [found] at real
    exact absurd rfl real
  | some value => rfl

theorem or_or (a b c : Value) : (a.or b).or c = a ∨ (a.or b).or c = b ∨ (a.or b).or c = c := by
  unfold Value.or
  split_ifs <;> simp

/-- What comes of three fields in turn is a field. -/
theorem get_or_or (fields : List (String × Value)) (first second third : String) :
    ∃ key ∈ [first, second, third], ((Doc.get (Dict.ofList fields) first).or (Doc.get (Dict.ofList fields) second)).or
      (Doc.get (Dict.ofList fields) third) = Doc.get (Dict.ofList fields) key := by
  rcases or_or (Doc.get (Dict.ofList fields) first) (Doc.get (Dict.ofList fields) second)
    (Doc.get (Dict.ofList fields) third) with same | same | same
  · exact ⟨first, by simp, same⟩
  · exact ⟨second, by simp, same⟩
  · exact ⟨third, by simp, same⟩

/-- What the endpoint's answer has for a URL. -/
theorem posted_url {url : Value} (given : ((Doc.get (Dict.ofList fields) "url").or (Doc.get (Dict.ofList fields) "html_url")).or
      (Doc.get (Dict.ofList fields) "self") = url) : url = .none ∨ Names env (.json (.dict fields)) url := by
  obtain ⟨key, known, same⟩ := get_or_or fields "url" "html_url" "self"
  rw [← given, same]
  by_cases real : Doc.get (Dict.ofList fields) key = .none
  · exact Or.inl real
  · exact Or.inr (.url known (get?_of_real real) real)

/-- What the endpoint's answer has for an id, as text. -/
theorem posted_id (notifier : Notifier) (legible : (Value.dict fields).legible env.limit = true) :
    ∃ id, (((Doc.get (Dict.ofList fields) "ticket_id").or (Doc.get (Dict.ofList fields) "id")).or
        (Doc.get (Dict.ofList fields) "key")).textOrNone env.limit env.repr = .ok id ∧
      Ticketed env notifier (.json (.dict fields)) id := by
  obtain ⟨key, known, same⟩ := get_or_or fields "ticket_id" "id" "key"
  rw [same]
  by_cases real : Doc.get (Dict.ofList fields) key = .none
  · rw [real]
    exact ⟨_, rfl, Or.inl rfl⟩
  · refine ⟨.str ((Doc.get (Dict.ofList fields) key).shown env.repr), ?_, Or.inr (Or.inl (.id known (get?_of_real real) real))⟩
    have printed : (Doc.get (Dict.ofList fields) key).text env.limit env.repr = .ok _ := text_of_legible (legible_get legible key)
    generalize Doc.get (Dict.ofList fields) key = value at real printed
    cases value with
    | none => exact absurd rfl real
    | _ => exact congrArg (Value.str <$> ·) printed

/-- The number of an issue, as text. -/
theorem filed_number {notifier : Notifier} (files : notifier.FilesIssues) (fields : List (String × Value)) :
    Ticketed env notifier (.json (.dict fields)) (.str ("#" ++ (Doc.get (Dict.ofList fields) "number").shown env.repr)) := by
  by_cases real : Doc.get (Dict.ofList fields) "number" = .none
  · rw [real]
    exact Or.inr (Or.inr (.issue files real))
  · exact Or.inr (Or.inl (.number (get?_of_real real) real))

end Answers
section Sinks
variable (env : Environment) (notifier : Notifier)

theorem attempt_apply {α : Type} (computed : Except Exception α) (world : World) :
    attempt computed world =
      match computed with
      | .ok value => .ok value world
      | .error raised => .error raised world := by
  cases computed <;> rfl

theorem urlopen_apply (request : Request) (world : World) :
    urlopen env request world =
      match env.reply world.log request with
      | .raised raised => .error raised (world.append [.requested request (.raised raised)])
      | .answered status body => .ok (status, body) (world.append [.requested request (.answered status body)]) := by
  unfold urlopen
  rw [bind_apply]
  dsimp only [EStateM.get_apply]
  cases env.reply world.log request <;> rfl

theorem sendAlert_acts (channel : String) (title : Value) (message severity : String) (world : World) :
    ∃ result final, notifier.sendAlert env channel title message severity world = .ok result final ∧
      Acts env notifier "alert" "sent" world result final := by
  obtain ⟨verdict, middle, ran, checks⟩ := allowed_checks env notifier "alert" world
  unfold Notifier.sendAlert
  dsimp only
  rw [bind_apply, ran]
  dsimp only
  cases allowed : verdict.allowed with
  | false =>
    refine ⟨_, middle, rfl, verdict, middle, [], checks, (World.append_nil middle).symm, ?_⟩
    rw [allowed]
    exact .suppressed (by simp [Dict.get?_ofList, List.lookup_cons]) (by simp [Dict.get?_ofList, List.lookup_cons])
  | true =>
    by_cases configured : notifier.settings.slackWebhookUrl ≠ ""
    · rw [if_neg (by decide), if_pos configured, tryCatch_apply, bind_apply, attempt_apply]
      cases title.text env.limit env.repr with
      | error raised =>
        refine ⟨_, middle, rfl, verdict, middle, [], checks, (World.append_nil middle).symm, ?_⟩
        rw [allowed]
        exact .unsent (by simp [Dict.get?_ofList, List.lookup_cons]) (by simp [Dict.get?_ofList, List.lookup_cons])
      | ok shown =>
        dsimp only
        rw [bind_apply, urlopen_apply]
        generalize env.reply middle.log _ = reply
        cases reply with
        | raised raised =>
          refine ⟨_, _, rfl, verdict, middle, _, checks, rfl, ?_⟩
          rw [allowed]
          exact .failed (fun _ _ same => by cases same) (by simp [Dict.get?_ofList, List.lookup_cons])
            (by simp [Dict.get?_ofList, List.lookup_cons])
        | answered status body =>
          refine ⟨_, _, rfl, verdict, middle, _, checks, rfl, ?_⟩
          rw [allowed]
          exact .delivered (by simp [Dict.get?_ofList, List.lookup_cons]) (by simp [Dict.get?_ofList, List.lookup_cons])
            (Or.inl (by simp [get_ofList, List.lookup_cons])) (Or.inl (by simp [get_ofList, List.lookup_cons]))
    · rw [if_neg (by decide), if_neg configured]
      refine ⟨_, middle, rfl, verdict, middle, [], checks, (World.append_nil middle).symm, ?_⟩
      rw [allowed]
      exact .logged (by simp [Dict.get?_ofList, List.lookup_cons]) (by simp [Dict.get?_ofList, List.lookup_cons])

/-- What posting a ticket comes to: one request at most, and the ticket or an exception. -/
inductive Posts (env : Environment) (notifier : Notifier) (world : World) : EStateM.Result Exception World Doc → Prop where
  | unsent {raised} : Posts env notifier world (.error raised world)
  | raised {request reply raised} (refused : ∀ code fields, reply ≠ .answered code (.json (.dict fields))) :
      Posts env notifier world (.error raised (world.append [.requested request reply]))
  | created {request code body result} (status : result.get? "status" = some (.str "created"))
      (synthetic : result.get? "synthetic" = some (.bool false))
      (url : Doc.get result "url" = .none ∨ Names env body (Doc.get result "url"))
      (ticket : Ticketed env notifier body (Doc.get result "ticket_id")) :
      Posts env notifier world (.ok result (world.append [.requested request (.answered code body)]))

/-- A request whose body can be printed is sent, and what comes of it is up to the answer. -/
theorem posts_request {data : List (String × Value)} {request : Request} {next : ℤ × Body → Action Doc} {world : World}
    (answers : ∀ code body, (∀ value, body = .json value → value.legible env.limit = true) →
      Posts env notifier world (next (code, body) (world.append [.requested request (.answered code body)]))) :
    Posts env notifier world ((attempt (dumps env.limit data) >>= fun _ => urlopen env request >>= next) world) := by
  rw [bind_apply, attempt_apply]
  cases dumps env.limit data with
  | error raised => exact .unsent
  | ok _ =>
    dsimp only
    rw [bind_apply, urlopen_apply]
    cases replied : env.reply world.log request with
    | raised raised => exact .raised fun _ _ same => by cases same
    | answered code body =>
      apply answers
      rintro value rfl
      exact env.parsed world.log request code value replied

theorem fileIssue_posts (files : notifier.FilesIssues) (summary : Value) (description priority assignee : String)
    (world : World) : Posts env notifier world (notifier.fileIssue env summary description priority assignee world) := by
  unfold Notifier.fileIssue
  apply posts_request
  intro code body legible
  dsimp only
  rw [bind_apply]
  cases body with
  | unreadable _ => exact .raised fun _ _ same => by cases same
  | blank _ => exact .raised fun _ _ same => by cases same
  | malformed _ => exact .raised fun _ _ same => by cases same
  | json value =>
    cases value with
    | dict fields =>
      dsimp only [loads, Notifier.attributeGet, EStateM.pure_apply]
      rw [bind_apply]
      dsimp only [EStateM.pure_apply]
      rw [text_of_legible (legible_get (legible _ rfl) "number")]
      refine .created (by simp [Dict.get?_ofList, List.lookup_cons]) (by simp [Dict.get?_ofList, List.lookup_cons]) ?_ ?_
      · rw [get_ofList]
        by_cases real : Doc.get (Dict.ofList fields) "html_url" = .none
        · exact Or.inl real
        · exact Or.inr (.url (by simp) (get?_of_real real) real)
      · rw [get_ofList]
        exact filed_number files fields
    | _ => exact .raised fun _ _ same => by cases same

theorem postTicket_posts (summary : Value) (description priority assignee : String) (world : World) :
    Posts env notifier world (notifier.postTicket env summary description priority assignee world) := by
  unfold Notifier.postTicket
  apply posts_request
  intro code body legible
  dsimp only
  rw [bind_apply]
  -- an answer that is no JSON object names no ticket
  have nameless : ∀ request body, Posts env notifier world (.ok (Dict.ofList [("status", .str "created"),
      ("delivery", .str "endpoint"), ("synthetic", .bool false), ("ticket_id", .none), ("url", .none),
      ("priority", .str priority), ("http_status", .int code)]) (world.append [.requested request (.answered code body)])) := by
    intro request body
    exact .created (by simp [Dict.get?_ofList, List.lookup_cons]) (by simp [Dict.get?_ofList, List.lookup_cons])
      (Or.inl (by simp [get_ofList, List.lookup_cons])) (Or.inl (by simp [get_ofList, List.lookup_cons]))
  cases body with
  | unreadable _ => exact .raised fun _ _ same => by cases same
  | blank _ => exact nameless _ _
  | malformed _ => exact nameless _ _
  | json value =>
    cases value with
    | dict fields =>
      obtain ⟨id, printed, ticketed⟩ := posted_id notifier (legible (.dict fields) rfl)
      dsimp only [Notifier.readTicket, EStateM.pure_apply]
      rw [bind_apply, attempt_apply, printed]
      refine .created (by simp [Dict.get?_ofList, List.lookup_cons]) (by simp [Dict.get?_ofList, List.lookup_cons]) ?_ ?_
      · rw [get_ofList]
        exact posted_url rfl
      · rw [get_ofList]
        exact ticketed
    | _ => exact nameless _ _

/-- An exception of a destination becomes an error, and nothing that looks like a ticket. -/
theorem Posts.acts {env : Environment} {notifier : Notifier} {world middle : World} {verdict : Verdict}
    {post : Action Doc} (posts : Posts env notifier middle (post middle)) (delivery priority : String)
    (checks : Checks notifier "ticket" world verdict middle) (allowed : verdict.allowed = true) :
    ∃ result final, (tryCatch post fun raised => pure (Notifier.ticketError delivery priority raised)) middle =
      .ok result final ∧ Acts env notifier "ticket" "created" world result final := by
  rw [tryCatch_apply]
  generalize post middle = ended at posts
  cases posts with
  | unsent =>
    refine ⟨_, _, rfl, verdict, middle, [], checks, (World.append_nil middle).symm, ?_⟩
    rw [allowed]
    exact .unsent (by simp [Notifier.ticketError, Dict.get?_ofList, List.lookup_cons])
      (by simp [Notifier.ticketError, Dict.get?_ofList, List.lookup_cons])
  | raised refused =>
    refine ⟨_, _, rfl, verdict, middle, _, checks, rfl, ?_⟩
    rw [allowed]
    exact .failed refused (by simp [Notifier.ticketError, Dict.get?_ofList, List.lookup_cons])
      (by simp [Notifier.ticketError, Dict.get?_ofList, List.lookup_cons])
  | created status synthetic url ticket =>
    refine ⟨_, _, rfl, verdict, middle, _, checks, rfl, ?_⟩
    rw [allowed]
    exact .delivered status synthetic url ticket

theorem openTicket_acts (summary : Value) (description priority assignee : String) (world : World) :
    ∃ result final, notifier.openTicket env summary description priority assignee world = .ok result final ∧
      Acts env notifier "ticket" "created" world result final := by
  obtain ⟨verdict, middle, ran, checks⟩ := allowed_checks env notifier "ticket" world
  unfold Notifier.openTicket
  rw [bind_apply, ran]
  dsimp only
  cases allowed : verdict.allowed with
  | false =>
    refine ⟨_, middle, rfl, verdict, middle, [], checks, (World.append_nil middle).symm, ?_⟩
    rw [allowed]
    exact .suppressed (by simp [Dict.get?_ofList, List.lookup_cons]) (by simp [Dict.get?_ofList, List.lookup_cons])
  | true =>
    rw [if_neg (by decide)]
    split
    next files => exact (fileIssue_posts env notifier files summary description priority assignee middle).acts _ priority checks allowed
    next =>
      split
      · exact (postTicket_posts env notifier summary description priority assignee middle).acts _ priority checks allowed
      · refine ⟨_, middle, rfl, verdict, middle, [], checks, (World.append_nil middle).symm, ?_⟩
        rw [allowed]
        exact .logged (by simp [Dict.get?_ofList, List.lookup_cons]) (by simp [Dict.get?_ofList, List.lookup_cons])

end Sinks
end NearRewards.Agent
