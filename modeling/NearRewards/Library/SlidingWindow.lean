import Mathlib.Data.List.Induction
import Mathlib.Order.Interval.Set.Basic

/-! Counting what was admitted within a span of time, when the clock is read before the
turn is taken. A reading may lag behind the turn it is used in; the count is then right for
a span that much shorter. -/

/-- One turn: whose it was, when it was taken, the reading it came with, and whether it was
admitted. -/
structure Arrival (ι : Type*) where
  source : ι
  entered : ℤ
  read : ℤ
  admitted : Bool

namespace SlidingWindow
variable {ι : Type*} (span : ℤ)

/-- The marks less than a span old. -/
def fresh (now : ℤ) (marks : List ℤ) : List ℤ := marks.filter fun mark => now - mark < span

/-- Every turn drops the marks that are too old by its own reading; an admitted one leaves its reading. -/
def turn (marks : List ℤ) (arrival : Arrival ι) : List ℤ :=
  if arrival.admitted then fresh span arrival.read marks ++ [arrival.read] else fresh span arrival.read marks

def kept (arrivals : List (Arrival ι)) : List ℤ := arrivals.foldl (turn span) []

/-- Turns are taken in order, and no reading is ahead of its turn or lags behind it by more than `lag`. -/
structure Punctual (lag : ℤ) (arrivals : List (Arrival ι)) : Prop where
  ordered : arrivals.Pairwise fun first second => first.entered ≤ second.entered
  lagged : ∀ arrival ∈ arrivals, arrival.read ≤ arrival.entered ∧ arrival.entered ≤ arrival.read + lag

/-- A turn is admitted only when fewer than `cap` marks are fresh. -/
def Capped (cap : ℕ) (arrivals : List (Arrival ι)) : Prop :=
  ∀ before arrival after, arrivals = before ++ arrival :: after → arrival.admitted = true →
    (fresh span arrival.read (kept span before)).length < cap

def within (start stop : ℤ) (arrivals : List (Arrival ι)) : List (Arrival ι) :=
  arrivals.filter fun arrival => arrival.admitted ∧ start < arrival.entered ∧ arrival.entered ≤ stop

variable {span} {lag : ℤ} {arrivals : List (Arrival ι)}

theorem fresh_fresh {now later : ℤ} (order : now ≤ later) (marks : List ℤ) :
    fresh span later (fresh span now marks) = fresh span later marks := by
  refine List.filter_filter.trans (List.filter_congr fun mark _ => ?_)
  rw [← Bool.decide_and, decide_eq_decide]
  omega

theorem kept_concat (arrivals : List (Arrival ι)) (arrival : Arrival ι) :
    kept span (arrivals ++ [arrival]) = turn span (kept span arrivals) arrival := by
  simp [kept]

theorem within_concat (start stop : ℤ) (arrivals : List (Arrival ι)) (arrival : Arrival ι) :
    within start stop (arrivals ++ [arrival]) = within start stop arrivals ++
      if arrival.admitted ∧ start < arrival.entered ∧ arrival.entered ≤ stop then [arrival] else [] := by
  unfold within
  rw [List.filter_append, List.filter_cons]
  simp only [List.filter_nil, decide_eq_true_eq]

theorem capped_concat {cap : ℕ} {arrivals : List (Arrival ι)} {arrival : Arrival ι} (capped : Capped span cap arrivals)
    (free : arrival.admitted = true → (fresh span arrival.read (kept span arrivals)).length < cap) :
    Capped span cap (arrivals ++ [arrival]) := by
  intro before next after split admitted
  rcases List.eq_nil_or_concat after with rfl | ⟨rest, last, rfl⟩
  · obtain ⟨rfl, same⟩ := List.append_inj' split rfl
    cases same
    exact free admitted
  · have shorter : arrivals = before ++ next :: rest := by
      rw [List.concat_eq_append, ← List.cons_append, ← List.append_assoc] at split
      exact (List.append_inj' split rfl).1
    exact capped before next rest shorter admitted

/-- Nothing happens between the last turn and a later end of the stretch. -/
theorem within_stop {start middle stop : ℤ} (reached : ∀ arrival ∈ arrivals, arrival.entered ≤ middle) (later : middle ≤ stop) :
    within start stop arrivals = within start middle arrivals := by
  apply List.filter_congr
  intro arrival member
  have order := reached arrival member
  simp only [decide_eq_decide]
  constructor
  · exact fun ⟨admitted, late, _⟩ => ⟨admitted, late, order⟩
  · exact fun ⟨admitted, late, _⟩ => ⟨admitted, late, order.trans later⟩

theorem length_within_add (start middle stop : ℤ) (arrivals : List (Arrival ι)) :
    (within start stop arrivals).length ≤ (within start middle arrivals).length + (within middle stop arrivals).length := by
  unfold within
  rw [← List.countP_eq_length_filter, ← List.countP_eq_length_filter, ← List.countP_eq_length_filter]
  induction arrivals with
  | nil => exact Nat.zero_le _
  | cons arrival rest ih =>
    simp only [List.countP_cons, decide_eq_true_eq]
    by_cases admitted : arrival.admitted = true
    · simp only [admitted, true_and]
      split_ifs <;> omega
    · simpa [admitted] using ih

namespace Punctual

theorem init {arrival : Arrival ι} (punctual : Punctual lag (arrivals ++ [arrival])) : Punctual lag arrivals :=
  ⟨(List.pairwise_append.mp punctual.ordered).1, fun earlier member => punctual.lagged earlier (List.mem_append_left _ member)⟩

theorem last {arrival : Arrival ι} (punctual : Punctual lag (arrivals ++ [arrival])) :
    ∀ earlier ∈ arrivals, earlier.entered ≤ arrival.entered :=
  fun earlier member => (List.pairwise_append.mp punctual.ordered).2.2 earlier member arrival List.mem_cons_self

end Punctual

/-- No mark of the last `span - lag` has been dropped: whichever turn might have dropped it
came with a reading that was not ahead of its turn. -/
theorem within_kept (punctual : Punctual lag arrivals) {stop now start : ℤ} (reached : ∀ arrival ∈ arrivals, arrival.entered ≤ stop)
    (past : now ≤ stop) (long : stop - (span - lag) ≤ start) :
    List.Sublist ((within start stop arrivals).map Arrival.read) (fresh span now (kept span arrivals)) := by
  induction arrivals using List.reverseRecOn generalizing stop now with
  | nil => exact List.nil_sublist _
  | append_singleton before arrival ih =>
    have turnRead := punctual.lagged arrival (by simp)
    have turnPast := reached arrival (by simp)
    have sooner : within start stop before = within start arrival.entered before := within_stop punctual.last turnPast
    have marks := ih punctual.init punctual.last turnRead.1 (by omega)
    -- what is within the span is fresh for the later reading as well
    have recent : ∀ mark ∈ (within start stop (before ++ [arrival])).map Arrival.read, now - mark < span := by
      intro mark member
      obtain ⟨earlier, found, rfl⟩ := List.mem_map.mp member
      obtain ⟨present, chosen⟩ := List.mem_filter.mp found
      have late := (of_decide_eq_true chosen).2.1
      have early := (punctual.lagged earlier present).2
      omega
    have grown : List.Sublist ((within start stop (before ++ [arrival])).map Arrival.read)
        (kept span (before ++ [arrival])) := by
      rw [within_concat, kept_concat, turn, List.map_append, sooner]
      by_cases admitted : arrival.admitted = true
      · rw [if_pos admitted]
        refine marks.append ?_
        split
        · exact List.Sublist.refl _
        · exact List.nil_sublist _
      · rw [if_neg admitted, if_neg (fun chosen => admitted chosen.1), List.map_nil, List.append_nil]
        exact marks
    have filtered := grown.filter fun mark => decide (now - mark < span)
    rwa [List.filter_eq_self.mpr (fun mark member => decide_eq_true (recent mark member))] at filtered

/-- In no stretch of `span - lag` more than `cap` turns are admitted. -/
theorem length_within_le {cap : ℕ} (punctual : Punctual lag arrivals) (capped : Capped span cap arrivals) (start : ℤ) :
    (within start (start + (span - lag)) arrivals).length ≤ cap := by
  induction arrivals using List.reverseRecOn with
  | nil => exact Nat.zero_le _
  | append_singleton before arrival ih =>
    have fewer := ih punctual.init fun first one rest split => capped first one (rest ++ [arrival]) (by rw [split]; simp)
    rw [within_concat, List.length_append]
    split
    next chosen =>
      obtain ⟨admitted, late, early⟩ := chosen
      have free := capped before arrival [] rfl admitted
      have marks : List.Sublist ((within start arrival.entered before).map Arrival.read)
          (fresh span arrival.read (kept span before)) := within_kept punctual.init punctual.last
        (punctual.lagged arrival (by simp)).1 (by omega)
      have same : within start (start + (span - lag)) before = within start arrival.entered before :=
        within_stop punctual.last early
      have counted := marks.length_le
      rw [List.length_map, ← same] at counted
      simp only [List.length_singleton]
      omega
    next => simpa using fewer

end SlidingWindow
