import NearRewards.Proofs.Router

/-! What a keyword classifier makes of an incident. Every domain with a matching signal is
found once, those of the precedence first, and the first one found routes the incident. -/

namespace NearRewards.Agent

section Distinct
variable {α : Type*} [DecidableEq α]

theorem eraseDups_concat (items : List α) (item : α) :
    (items ++ [item]).eraseDups = if item ∈ items then items.eraseDups else items.eraseDups ++ [item] := by
  rw [List.eraseDups_append]
  split
  next member => simp [List.removeAll, member]
  next absent => simp [List.removeAll, absent, List.eraseDups_cons]

theorem nodup_eraseDups (items : List α) : items.eraseDups.Nodup := by
  induction items using List.reverseRecOn with
  | nil => exact List.nodup_nil
  | append_singleton items item ih =>
    rw [eraseDups_concat]
    split
    next => exact ih
    next absent =>
      have apart : item ∉ items.eraseDups := fun member => absent (List.mem_eraseDups.mp member)
      exact List.nodup_append.mpr ⟨ih, List.nodup_singleton _, by simpa using fun other member => (ne_of_mem_of_not_mem member apart)⟩

end Distinct

namespace KeywordClassifier
variable {classifier : KeywordClassifier} {text : String}

/-- The text has a signal of the domain. -/
def matched (classifier : KeywordClassifier) (text domain : String) : Bool :=
  classifier.signals.any fun signal => signal.1 = domain ∧ signal.2 text

/-- The domains in the order in which they are looked for. -/
def ranking (classifier : KeywordClassifier) : List String := classifier.precedence ++ classifier.signals.map Prod.fst

theorem foldl_note (found : String → Bool) (domains items : List String) :
    domains.foldl (fun hits domain => note hits domain (found domain)) items.eraseDups = (items ++ domains.filter found).eraseDups := by
  induction domains generalizing items with
  | nil => simp
  | cons domain domains ih =>
    have noted : note items.eraseDups domain (found domain) = (items ++ [domain].filter found).eraseDups := by
      unfold note
      rw [List.filter_singleton]
      cases found domain with
      | false => simp
      | true =>
        rw [cond_true, eraseDups_concat]
        by_cases member : domain ∈ items <;> simp [member]
    rw [List.foldl_cons, noted, ih, List.append_assoc, ← List.filter_append]
    rfl

/-- Of a domain with one signal, that signal decides. -/
theorem matched_of_mem (distinct : (classifier.signals.map Prod.fst).Nodup) {signal : String × (String → Bool)}
    (member : signal ∈ classifier.signals) : classifier.matched text signal.1 = signal.2 text := by
  unfold matched
  rw [Bool.eq_iff_iff, List.any_eq_true]
  constructor
  · rintro ⟨other, among, found⟩
    obtain ⟨same, found⟩ := of_decide_eq_true found
    rwa [← List.inj_on_of_nodup_map distinct among member same]
  · exact fun found => ⟨signal, member, decide_eq_true ⟨rfl, found⟩⟩

theorem prefer_eq (distinct : (classifier.signals.map Prod.fst).Nodup) (hits : List String) (domain : String) :
    classifier.prefer text hits domain = note hits domain (classifier.matched text domain) := by
  unfold prefer
  cases found : (Dict.ofList classifier.signals).get? domain with
  | some pattern => exact congrArg (note hits domain) (matched_of_mem distinct (Dict.mem_of_ofList found)).symm
  | none =>
    rw [Dict.get?_ofList, List.lookup_eq_none_iff] at found
    have silent : classifier.matched text domain = false := by
      unfold matched
      rw [List.any_eq_false]
      intro signal member matches_
      have other := found signal (List.mem_reverse.mpr member)
      simp [(of_decide_eq_true matches_).1] at other
    simp [silent, note]

/-- Each matched domain once, in the order of the ranking. -/
theorem hits_eq (distinct : (classifier.signals.map Prod.fst).Nodup) (text : String) :
    classifier.hits text = (classifier.ranking.filter (classifier.matched text)).eraseDups := by
  have preferred : classifier.precedence.foldl (classifier.prefer text) [] =
      (classifier.precedence.filter (classifier.matched text)).eraseDups :=
    (List.foldl_ext _ _ _ fun hits domain _ => prefer_eq distinct hits domain).trans (foldl_note _ _ [])
  unfold hits ranking
  dsimp only
  rw [preferred, List.filter_append, ← foldl_note, List.foldl_map]
  exact List.foldl_ext _ _ _ fun hits signal member => congrArg (note hits signal.1) (matched_of_mem distinct member).symm

theorem headD_eraseDups (items : List String) (default : String) : items.eraseDups.headD default = items.head?.getD default := by
  cases items with
  | nil => rfl
  | cons item items =>
    rw [List.eraseDups_cons]
    rfl

theorem mem_hits (distinct : (classifier.signals.map Prod.fst).Nodup) {domain : String} :
    domain ∈ classifier.hits text ↔ classifier.matched text domain = true := by
  rw [hits_eq distinct, List.mem_eraseDups, List.mem_filter]
  refine and_iff_right_of_imp fun found => ?_
  obtain ⟨signal, member, matches_⟩ := List.any_eq_true.mp found
  rw [← (of_decide_eq_true matches_).1]
  exact List.mem_append_right _ (List.mem_map_of_mem member)

end KeywordClassifier

section Routing
variable {env : Environment} {router : Router} {classifier : KeywordClassifier}
open KeywordClassifier

theorem domainsOf_ducked (ducked : router.classifier = classifier.ducked) (incident : Doc) :
    router.domainsOf incident = .ok ((classifier.matches_ incident).headD classifier.default, classifier.matches_ incident) := by
  unfold Router.domainsOf
  rw [ducked]
  rfl

/-- With one signal for each domain, the domains of the record are those with a match, each of
them once, and the incident is routed by the first: a domain of the precedence comes before all
others, whichever order the signals are in. -/
theorem precedence_routes (ducked : router.classifier = classifier.ducked) (distinct : (classifier.signals.map Prod.fst).Nodup)
    (proper : ∀ domain name handler, router.registry.get? name = some handler → Proper domain handler)
    (incident : Doc) (world : World) :
    ∃ record final, router.route env incident world = .ok record final ∧
      record.domain = (classifier.ranking.find? (classifier.matched (haystack incident))).getD classifier.default ∧
      record.domains = (classifier.ranking.filter (classifier.matched (haystack incident))).eraseDups ∧
      record.domains.Nodup ∧ ∀ domain, domain ∈ record.domains ↔ classifier.matched (haystack incident) domain = true := by
  have ranked : classifier.matches_ incident = _ := hits_eq distinct (haystack incident)
  have step : ∀ (_ : List String) name gathered reached, True → ∃ later final,
      router.fire env incident ((classifier.matches_ incident).headD classifier.default) gathered name reached = .ok later final ∧ True := by
    intro _ name gathered reached _
    obtain ⟨later, final, _, ran, _⟩ : ∃ later final entries, router.fire env incident _ gathered name reached = .ok later final ∧
        later.fired = gathered.fired ++ entries ∧ _ := fire_round (proper _) name gathered reached
    exact ⟨later, final, ran, trivial⟩
  obtain ⟨gathered, final, routed, _⟩ := route_keeps (fun _ _ _ => True) (domainsOf_ducked ducked incident) world step trivial
  refine ⟨_, final, routed, ?_, ranked, ?_, fun domain => mem_hits distinct⟩
  · change (classifier.matches_ incident).headD classifier.default = _
    rw [ranked, headD_eraseDups, List.head?_filter]
  · change (classifier.matches_ incident).Nodup
    rw [ranked]
    exact nodup_eraseDups _

/-- Somebody is after the payments. -/
def breach : Doc := Dict.ofList [("title", .str "Checkout down"), ("summary", .str "An attacker took payment tokens.")]

/-- A classifier that looks for a word in each domain. -/
def watch : KeywordClassifier where
  signals := [(domainFinance, fun text => "payment".toList <:+: text.toList), (domainInfra, fun text => "deploy".toList <:+: text.toList),
    (domainSecurity, fun text => "attacker".toList <:+: text.toList)]

theorem precedence_routes_breach : ∃ record final,
    (usual office desk "#ops" "P1" watch.ducked).route office breach {} = .ok record final ∧ record.domain = domainSecurity ∧
      record.domains = [domainSecurity, domainFinance] := by
  have ducked : (usual office desk "#ops" "P1" watch.ducked).classifier = watch.ducked := rfl
  obtain ⟨record, final, routed, domain, domains, _⟩ := precedence_routes ducked (by decide +kernel)
    (fun domain _ _ found => (usual_stock found).proper domain) breach {}
  exact ⟨record, final, routed, domain.trans (by decide +kernel), domains.trans (by decide +kernel)⟩

/-- Of two signals for one domain only the last is looked for ahead of the others. -/
example : ({ signals := (domainSecurity, fun text => "tokens".toList <:+: text.toList) :: watch.signals } : KeywordClassifier).hits
    "Payment tokens lost: a payment failed" = [domainFinance, domainSecurity] := by decide +kernel

end Routing
end NearRewards.Agent
