import NearRewards.Screen

/-! What passes the screen. The screen cuts block comments out first and line comments after
that, and knows no quotes; a database goes through the text once. Both see the same statement
unless the opening of a comment stands in a line comment or between quotes, and then anything
can be hidden from the screen. -/

namespace NearRewards.Agent
namespace Screen

section Scanning

/-- Where a single pass through the text is: in live text, between quotes, in a comment. -/
inductive Mode where
  | code
  | quoted
  | line
  | block

/-- What is live in the text, with a space for each comment. A block comment that is never closed is none. -/
def live : Mode → List Char → List Char
  | _, [] => []
  | .code, '-' :: '-' :: rest => ' ' :: live .line rest
  | .code, '#' :: rest => ' ' :: live .line rest
  | .code, '/' :: '*' :: rest => if closes rest then ' ' :: live .block rest else '/' :: live .code ('*' :: rest)
  | .code, '\'' :: rest => '\'' :: live .quoted rest
  | .code, c :: rest => c :: live .code rest
  | .quoted, '\'' :: rest => '\'' :: live .code rest
  | .quoted, c :: rest => c :: live .quoted rest
  | .line, '\n' :: rest => '\n' :: live .code rest
  | .line, _ :: rest => live .line rest
  | .block, '*' :: '/' :: rest => live .code rest
  | .block, _ :: rest => live .block rest

/-- A line comment has the opening of a block comment in it, or quotes have that of any comment. -/
def tangled : Mode → List Char → Bool
  | _, [] => false
  | .code, '-' :: '-' :: rest => tangled .line rest
  | .code, '#' :: rest => tangled .line rest
  | .code, '/' :: '*' :: rest => if closes rest then tangled .block rest else tangled .code ('*' :: rest)
  | .code, '\'' :: rest => tangled .quoted rest
  | .code, _ :: rest => tangled .code rest
  | .quoted, '\'' :: rest => tangled .code rest
  | .quoted, '-' :: '-' :: _ => true
  | .quoted, '#' :: _ => true
  | .quoted, '/' :: '*' :: rest => closes rest || tangled .quoted ('*' :: rest)
  | .quoted, _ :: rest => tangled .quoted rest
  | .line, '\n' :: rest => tangled .code rest
  | .line, '/' :: '*' :: rest => closes rest || tangled .line ('*' :: rest)
  | .line, _ :: rest => tangled .line rest
  | .block, '*' :: '/' :: rest => tangled .code rest
  | .block, _ :: rest => tangled .block rest

theorem stripLines_char {c : Char} {text : List Char} (hash : c ≠ '#') (dashes : c = '-' → text.head? ≠ some '-') :
    stripLines false (c :: text) = c :: stripLines false text := by
  rw [stripLines.eq_def]
  split
  next same => cases same
  next same =>
    cases same
    exact absurd rfl (dashes rfl)
  next same =>
    cases same
    exact absurd rfl hash
  next same =>
    cases same
    rfl
  next same =>
    cases same
    rfl

theorem stripLines_inside {c : Char} (text : List Char) (line : c ≠ '\n') :
    stripLines true (c :: text) = stripLines true text := by
  rw [stripLines.eq_def]
  split
  next same => cases same
  next same =>
    cases same
    rfl
  next same =>
    cases same
    rfl
  next same =>
    cases same
    exact absurd rfl line
  next same =>
    cases same
    rfl

theorem stripBlocks_char {c : Char} {text : List Char} (opens : c = '/' → text.head? ≠ some '*') :
    stripBlocks false (c :: text) = c :: stripBlocks false text := by
  rw [stripBlocks.eq_def]
  split
  next same => cases same
  next same =>
    cases same
    rfl
  next same =>
    cases same
    exact absurd rfl (opens rfl)
  next same =>
    cases same
    rfl

theorem stripBlocks_inside {c : Char} {text : List Char} (ends : c = '*' → text.head? ≠ some '/') :
    stripBlocks true (c :: text) = stripBlocks true text := by
  rw [stripBlocks.eq_def]
  split
  next same => cases same
  next same =>
    cases same
    exact absurd rfl (ends rfl)
  next same =>
    cases same
    rfl
  next same =>
    cases same
    rfl

/-- Cutting comments out brings no dash to the front. -/
theorem dash_stripBlocks {text : List Char} (dash : (stripBlocks false text).head? = some '-') : text.head? = some '-' := by
  rw [stripBlocks.eq_def] at dash
  split at dash
  next => cases dash
  next => cases dash
  next =>
    simp only [Bool.false_eq_true, if_false] at dash
    split at dash <;> cases dash
  next => exact dash

/-- Where no block comment is opened, or one that is never closed, the character stays. -/
theorem stripBlocks_unopened {c : Char} {text : List Char} (unopened : ∀ rest, c = '/' → text = '*' :: rest → closes rest = false) :
    stripBlocks false (c :: text) = c :: stripBlocks false text := by
  by_cases opens : c = '/' ∧ ∃ rest, text = '*' :: rest
  · obtain ⟨rfl, rest, rfl⟩ := opens
    exact if_neg (Bool.eq_false_iff.mp (unopened rest rfl rfl))
  · refine stripBlocks_char fun slash star => ?_
    obtain ⟨rest, more⟩ := List.head?_eq_some_iff.mp star
    exact opens ⟨slash, rest, more⟩

/-- What the screen leaves of text of which a single pass is somewhere in the middle. -/
def stripFrom : Mode → List Char → List Char
  | .code, text => stripLines false (stripBlocks false text)
  | .quoted, text => stripLines false (stripBlocks false text)
  | .line, text => stripLines true (stripBlocks false text)
  | .block, text => stripLines false (stripBlocks true text)

/-- Where no comment is opened, the character stays. -/
theorem strip_char {c : Char} {text : List Char} (hash : c ≠ '#') (dashes : ∀ rest, c = '-' → text = '-' :: rest → False)
    (unopened : ∀ rest, c = '/' → text = '*' :: rest → closes rest = false) :
    stripLines false (stripBlocks false (c :: text)) = c :: stripLines false (stripBlocks false text) := by
  rw [stripBlocks_unopened unopened, stripLines_char hash]
  intro dash another
  obtain ⟨rest, more⟩ := List.head?_eq_some_iff.mp (dash_stripBlocks another)
  exact dashes rest dash more

/-- Between quotes that are not tangled no comment is opened. -/
theorem tangled_quoted {c : Char} {text : List Char} (inside : c ≠ '\'') (plain : tangled .quoted (c :: text) = false) :
    c ≠ '#' ∧ (∀ rest, c = '-' → text = '-' :: rest → False) ∧
      (∀ rest, c = '/' → text = '*' :: rest → closes rest = false) ∧ tangled .quoted text = false := by
  have hash : c ≠ '#' := by
    rintro rfl
    cases plain
  have dashes : ∀ rest, c = '-' → text = '-' :: rest → False := by
    rintro rest rfl rfl
    cases plain
  refine ⟨hash, dashes, ?_⟩
  by_cases opens : c = '/' ∧ ∃ rest, text = '*' :: rest
  · obtain ⟨rfl, rest, rfl⟩ := opens
    obtain ⟨unclosed, later⟩ := Bool.or_eq_false_iff.mp plain
    refine ⟨fun tail _ same => ?_, later⟩
    cases same
    exact unclosed
  · refine ⟨fun rest slash star => absurd ⟨slash, rest, star⟩ opens, ?_⟩
    rw [tangled] at plain
    · exact plain
    · exact inside
    · exact dashes
    · exact hash
    · exact fun rest slash star => opens ⟨slash, rest, star⟩

/-- Cutting blocks out and then lines comes to the same as one pass, in whichever mode it starts. -/
theorem strip_eq_live (mode : Mode) (text : List Char) (plain : tangled mode text = false) :
    stripFrom mode text = live mode text := by
  induction mode, text using live.induct with
  | case1 mode => cases mode <;> rfl
  | case2 rest ih =>
    have commented := ih plain
    dsimp only [stripFrom] at commented ⊢
    rw [stripBlocks_char (fun slash => absurd slash (by decide)), stripBlocks_char (fun slash => absurd slash (by decide))]
    exact congrArg (' ' :: ·) commented
  | case3 rest ih =>
    have commented := ih plain
    dsimp only [stripFrom] at commented ⊢
    rw [stripBlocks_char (fun slash => absurd slash (by decide))]
    exact congrArg (' ' :: ·) commented
  | case4 rest closed ih =>
    have opened : stripBlocks false ('/' :: '*' :: rest) = ' ' :: stripBlocks true rest := if_pos closed
    have seen : live .code ('/' :: '*' :: rest) = ' ' :: live .block rest := if_pos closed
    have followed : tangled .code ('/' :: '*' :: rest) = tangled .block rest := if_pos closed
    have commented := ih (followed ▸ plain)
    dsimp only [stripFrom] at commented ⊢
    rw [opened, seen, stripLines_char (by decide) (fun dash => absurd dash (by decide)), commented]
  | case5 rest unclosed ih =>
    have seen : live .code ('/' :: '*' :: rest) = '/' :: live .code ('*' :: rest) := if_neg unclosed
    have followed : tangled .code ('/' :: '*' :: rest) = tangled .code ('*' :: rest) := if_neg unclosed
    have left := ih (followed ▸ plain)
    dsimp only [stripFrom] at left ⊢
    rw [strip_char (by decide) (fun _ dash => absurd dash (by decide)), seen, left]
    intro _ _ same
    cases same
    exact Bool.eq_false_iff.mpr unclosed
  | case6 rest ih =>
    have left := ih plain
    dsimp only [stripFrom] at left ⊢
    rw [strip_char (by decide) (fun _ dash => absurd dash (by decide)) (fun _ slash => absurd slash (by decide)), left]
    rfl
  | case7 c rest dashes hash opens quote ih =>
    have seen : live .code (c :: rest) = c :: live .code rest := by rw [live] <;> assumption
    have followed : tangled .code (c :: rest) = tangled .code rest := by rw [tangled] <;> assumption
    have left := ih (followed ▸ plain)
    dsimp only [stripFrom] at left ⊢
    rw [strip_char hash dashes (fun tail slash star => (opens tail slash star).elim), seen, left]
  | case8 rest ih =>
    have left := ih plain
    dsimp only [stripFrom] at left ⊢
    rw [strip_char (by decide) (fun _ dash => absurd dash (by decide)) (fun _ slash => absurd slash (by decide)), left]
    rfl
  | case9 c rest quote ih =>
    obtain ⟨hash, dashes, unopened, later⟩ := tangled_quoted quote plain
    have seen : live .quoted (c :: rest) = c :: live .quoted rest := by rw [live]; assumption
    have left := ih later
    dsimp only [stripFrom] at left ⊢
    rw [strip_char hash dashes unopened, seen, left]
  | case10 rest ih =>
    have left := ih plain
    dsimp only [stripFrom] at left ⊢
    rw [stripBlocks_char (fun slash => absurd slash (by decide))]
    exact congrArg ('\n' :: ·) left
  | case11 c rest line ih =>
    -- no block is opened here, so that the block pass leaves the character to the line pass
    have kept : stripBlocks false (c :: rest) = c :: stripBlocks false rest ∧ tangled .line rest = false := by
      by_cases opens : c = '/' ∧ ∃ tail, rest = '*' :: tail
      · obtain ⟨rfl, tail, rfl⟩ := opens
        obtain ⟨unclosed, later⟩ := Bool.or_eq_false_iff.mp plain
        exact ⟨if_neg (Bool.eq_false_iff.mp unclosed), later⟩
      · have followed : tangled .line (c :: rest) = tangled .line rest := by
          rw [tangled]
          · exact line
          · exact fun tail slash star => opens ⟨slash, tail, star⟩
        exact ⟨stripBlocks_unopened fun tail slash star => absurd ⟨slash, tail, star⟩ opens, followed ▸ plain⟩
    have seen : live .line (c :: rest) = live .line rest := by rw [live]; assumption
    have left := ih kept.2
    dsimp only [stripFrom] at left ⊢
    rw [kept.1, stripLines_inside _ line, seen, left]
  | case12 rest ih => exact ih plain
  | case13 c rest ends ih =>
    have seen : live .block (c :: rest) = live .block rest := by rw [live]; assumption
    have followed : tangled .block (c :: rest) = tangled .block rest := by rw [tangled]; assumption
    have left := ih (followed ▸ plain)
    dsimp only [stripFrom] at left ⊢
    rw [stripBlocks_inside, seen, left]
    intro star slash
    obtain ⟨tail, more⟩ := List.head?_eq_some_iff.mp slash
    exact ends tail star more

end Scanning
section Accepting

theorem stripped_eq_nil {text : List Char} : stripped text = [] ↔ ∀ c ∈ text, isSpace c = true := by
  unfold stripped
  rw [List.rdropWhile_eq_nil_iff]
  constructor
  · intro rest
    apply List.dropWhile_eq_nil_iff.mp
    by_contra some_
    have first := rest _ (List.head_mem some_)
    rw [List.head_dropWhile_not isSpace some_] at first
    cases first
  · exact fun blank c member => blank c ((List.dropWhile_suffix _).subset member)

/-- Blank text has no comments in it. -/
theorem live_blank {text : List Char} (blank : ∀ c ∈ text, isSpace c = true) : live .code text = text := by
  induction text with
  | nil => rfl
  | cons c text ih =>
    have space := blank c List.mem_cons_self
    rw [live, ih fun other member => blank other (List.mem_cons_of_mem _ member)]
    all_goals
      intros
      subst c
      exact absurd space (by decide)

/-- The statement that is live in the text. -/
def statement (sql : List Char) : List Char := stripped ((stripped (live .code sql)).rdropWhile (· = ';'))

theorem statement_blank {sql : List Char} (blank : stripped sql = []) : statement sql = [] := by
  unfold statement
  rw [live_blank (stripped_eq_nil.mp blank), blank]
  rfl

/-- After parentheses and space the statement begins with the word, in any case. -/
def Begins (word statement : List Char) : Prop :=
  word <+: ((statement.dropWhile (· = '(')).dropWhile isSpace).map Char.toLower

instance (word statement : List Char) : Decidable (Begins word statement) := inferInstanceAs (Decidable (_ <+: _))

/-- What the screen asks of a text: it is not too long, has no comment that MySQL executes, and
what is live in it is one statement, which begins like a query, has no word in it that writes,
and nothing unsafe anywhere. -/
structure Reads (script : Script) (cap : ℤ) (sql : String) : Prop where
  small : sql.utf8ByteSize ≤ cap
  unversioned : ¬"/*!".toList <:+: sql.toList
  filled : statement sql.toList ≠ []
  single : ';' ∉ statement sql.toList
  begins : Begins "select".toList (statement sql.toList) ∨ Begins "with".toList (statement sql.toList)
  silent : ∀ token ∈ writeTokens, ¬Pattern.Stands (alphabet script) token.toList (statement sql.toList)
  safe : ∀ construct ∈ unsafeConstructs, ∀ front back, statement sql.toList = front ++ back →
    construct.2.here (alphabet script) front.getLast? back = none

variable {script : Script} {cap : ℤ} {sql : String}

theorem begins_iff {word : List Char} (plain : Casing.Plain word) (text : List Char) :
    word <+: opening script text ↔ Begins word text :=
  Casing.prefix_lowerFrom plain _

theorem ite_some_eq_none {wrong : Prop} [Decidable wrong] {message : String} {rest : Option String} :
    (if wrong then some message else rest) = none ↔ ¬wrong ∧ rest = none := by
  split
  next found => exact iff_of_false (by simp) fun passed => passed.1 found
  next right => exact (and_iff_right right).symm

/-- The screen's checks, one after the other. -/
theorem assertReadOnly_eq_none : assertReadOnly script sql cap = none ↔
    stripped sql.toList ≠ [] ∧ sql.utf8ByteSize ≤ cap ∧ ¬"/*!".toList <:+: sql.toList ∧ cleaned sql.toList ≠ [] ∧
      ';' ∉ cleaned sql.toList ∧
      ("select".toList <+: opening script (cleaned sql.toList) ∨ "with".toList <+: opening script (cleaned sql.toList)) ∧
      (Pattern.words (writeTokens.map String.toList)).search (alphabet script) (cleaned sql.toList) = none ∧
      ∀ construct ∈ unsafeConstructs, construct.2.search (alphabet script) (cleaned sql.toList) = none := by
  unfold assertReadOnly
  dsimp only
  rw [ite_some_eq_none, ite_some_eq_none, ite_some_eq_none, ite_some_eq_none, ite_some_eq_none, ite_some_eq_none, not_lt, not_not]
  refine and_congr_right' (and_congr_right' (and_congr_right' (and_congr_right' (and_congr_right' (and_congr_right' ?_)))))
  cases (Pattern.words (writeTokens.map String.toList)).search (alphabet script) (cleaned sql.toList) with
  | some hit => simp
  | none =>
    rw [List.findSome?_eq_none_iff, and_iff_right rfl]
    exact forall₂_congr fun _ _ => Option.map_eq_none_iff

theorem caseless_shown (_ : List Char) (c : Char) (_ : List Char) : [c] ≠ [] := List.cons_ne_nil c []

theorem caseless_outside (_ : List Char) (c : Char) (_ : List Char) (foreign : ¬Casing.Ascii c) :
    ∀ lowered ∈ [c], ¬Casing.Ascii lowered := by
  intro lowered member
  rw [List.mem_singleton.mp member]
  exact foreign

/-- Characters outside ASCII have no case and are no part of words. -/
def ascii : Script where
  casing :=
    { lower := fun _ c _ => [c]
      shown := caseless_shown
      outside := caseless_outside }
  alnum _ := false
  quoted text := "'" ++ String.ofList text ++ "'"

/-- On text in which no comment is opened inside a line comment or between quotes, the screen
does what it is for: it accepts exactly what reads. -/
theorem screen_accepts (plain : tangled .code sql.toList = false) :
    assertReadOnly script sql cap = none ↔ Reads script cap sql := by
  have same : cleaned sql.toList = statement sql.toList := by
    have scanned := strip_eq_live .code sql.toList plain
    unfold cleaned stripComments statement
    rw [← scanned]
    rfl
  have tokens : (Pattern.words (writeTokens.map String.toList)).search (alphabet script) (statement sql.toList) = none ↔
      ∀ token ∈ writeTokens, ¬Pattern.Stands (alphabet script) token.toList (statement sql.toList) := by
    rw [Pattern.words_search_eq_none (by decide), List.forall_mem_map]
  rw [assertReadOnly_eq_none, same, tokens, begins_iff (by decide), begins_iff (by decide)]
  constructor
  · rintro ⟨_, small, unversioned, filled, single, begins, silent, safe⟩
    exact ⟨small, unversioned, filled, single, begins, silent, fun construct listed =>
      Pattern.search_eq_none.mp (safe construct listed)⟩
  · intro reads
    refine ⟨fun blank => reads.filled (statement_blank blank), reads.small, reads.unversioned, reads.filled, reads.single,
      reads.begins, reads.silent, fun construct listed => ?_⟩
    exact Pattern.search_eq_none.mpr (reads.safe construct listed)

theorem screen_accepts_orders : Reads ascii 8000 "(SELECT id -- all\nfrom orders /* of; May */ where note = 'late') ;" :=
  (screen_accepts (by decide +kernel)).mp (by decide +kernel)

end Accepting
section Hiding

/-- A query, and the payload after a line comment that opens a block comment. -/
def smuggling (payload : String) : String := "select 1 -- /*\n" ++ payload ++ "\n-- */"

theorem closes_append (front : List Char) {text : List Char} (closed : closes text = true) : closes (front ++ text) = true := by
  induction front with
  | nil => exact closed
  | cons c front ih =>
    rw [List.cons_append, closes.eq_def]
    split
    next => rfl
    next same =>
      cases same
      exact ih
    next same => cases same

/-- Inside a comment nothing is left until it is closed. -/
theorem stripBlocks_until {text : List Char} (unclosed : closes text = false) (rest : List Char) :
    stripBlocks true (text ++ '\n' :: rest) = stripBlocks true rest := by
  induction text with
  | nil => rfl
  | cons c text ih =>
    have further : closes text = false ∧ (c = '*' → text.head? ≠ some '/') := by
      rw [closes.eq_def] at unclosed
      split at unclosed
      next => cases unclosed
      next other same =>
        cases same
        refine ⟨unclosed, fun star slash => ?_⟩
        obtain ⟨tail, more⟩ := List.head?_eq_some_iff.mp slash
        rw [star, more] at other
        exact other tail rfl rfl
      next same => cases same
    rw [List.cons_append, stripBlocks_inside, ih further.1]
    intro star slash
    cases text with
    | nil => cases slash
    | cons next text => exact further.2 star slash

theorem stripBlocks_append {front : List Char} (plain : '/' ∉ front) (text : List Char) :
    stripBlocks false (front ++ text) = front ++ stripBlocks false text := by
  induction front with
  | nil => rfl
  | cons c front ih =>
    obtain ⟨here, later⟩ := not_or.mp (List.mem_cons.not.mp plain)
    rw [List.cons_append, stripBlocks_char (fun slash => absurd slash.symm here), ih later, List.cons_append]

theorem live_append {front : List Char} (plain : (front.all fun c => c ∉ ['-', '#', '/', '\'']) = true) (text : List Char) :
    live .code (front ++ text) = front ++ live .code text := by
  induction front with
  | nil => rfl
  | cons c front ih =>
    rw [List.all_cons, Bool.and_eq_true_iff, decide_eq_true_eq] at plain
    rw [List.cons_append, live, ih plain.2, List.cons_append]
    all_goals
      intros
      subst c
      exact plain.1 (by decide)

variable {script : Script} {cap : ℤ} {payload : String}

theorem toList_smuggling : (smuggling payload).toList =
    "select 1 ".toList ++ '-' :: '-' :: ' ' :: '/' :: '*' :: '\n' :: (payload.toList ++ '\n' :: "-- */".toList) := by
  unfold smuggling
  rw [String.toList_append, String.toList_append, List.append_assoc]
  rfl

theorem cleaned_smuggling (unclosed : closes payload.toList = false) : cleaned (smuggling payload).toList = "select 1".toList := by
  have closed : closes (payload.toList ++ '\n' :: "-- */".toList) = true := closes_append _ (by decide)
  have opened : stripBlocks false ('/' :: '*' :: '\n' :: (payload.toList ++ '\n' :: "-- */".toList)) =
      ' ' :: stripBlocks true ('\n' :: (payload.toList ++ '\n' :: "-- */".toList)) := if_pos closed
  have cut : stripBlocks false (smuggling payload).toList = "select 1 --  ".toList := by
    rw [toList_smuggling, stripBlocks_append (by decide), stripBlocks_char (fun slash => absurd slash (by decide)),
      stripBlocks_char (fun slash => absurd slash (by decide)), stripBlocks_char (fun slash => absurd slash (by decide)), opened,
      stripBlocks_inside (fun star => absurd star (by decide)), stripBlocks_until unclosed]
    decide
  unfold cleaned stripComments
  rw [cut]
  decide

/-- The screen does not see what a line comment hides behind the opening of a block comment:
whatever the payload, short of the end of a comment, it takes the whole text for "select 1", and
lets it pass unless it is too long or has a versioned comment in it, while a single pass finds
the payload live. -/
theorem payload_hidden (unclosed : closes payload.toList = false) :
    (assertReadOnly script (smuggling payload) cap = none ↔
      (smuggling payload).utf8ByteSize ≤ cap ∧ ¬"/*!".toList <:+: (smuggling payload).toList) ∧
    live .code (smuggling payload).toList = "select 1  \n".toList ++ live .code (payload.toList ++ '\n' :: "-- */".toList) := by
  constructor
  · have some_ : stripped (smuggling payload).toList ≠ [] := by
      intro blank
      have first := stripped_eq_nil.mp blank 's' (by rw [toList_smuggling]; simp)
      exact absurd first (by decide)
    rw [assertReadOnly_eq_none, cleaned_smuggling unclosed, begins_iff (by decide), begins_iff (by decide)]
    constructor
    · exact fun passed => ⟨passed.2.1, passed.2.2.1⟩
    · rintro ⟨small, unversioned⟩
      have safe : (unsafeConstructs.all fun construct => (construct.2.search (alphabet script) "select 1".toList).isNone) = true := rfl
      refine ⟨some_, small, unversioned, by decide, by decide, Or.inl (by decide), rfl, fun construct listed => ?_⟩
      exact Option.isNone_iff_eq_none.mp (List.all_eq_true.mp safe construct listed)
  · rw [toList_smuggling, live_append (by decide)]
    rfl

theorem payload_hidden_drop : assertReadOnly ascii (smuggling "; drop table orders") 8000 = none ∧
    live .code (smuggling "; drop table orders").toList = "select 1  \n; drop table orders\n ".toList := by
  obtain ⟨passes, seen⟩ := @payload_hidden ascii 8000 "; drop table orders" (by decide +kernel)
  exact ⟨passes.mpr (by decide +kernel), seen.trans (by decide +kernel)⟩

end Hiding
end Screen
end NearRewards.Agent
