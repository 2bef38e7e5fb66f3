import Mathlib.Data.List.Induction

/-! Single-use permissions. Some events of a run settle which permission is open, some use it,
and each use closes it. Whoever watches can tell which permission a use had, and how many had
none; no permission is ever used twice. -/

namespace Permit

/-- What an event is to whoever watches. -/
inductive Sign (ι : Type*) where
  | settle (permission : Option ι)
  | use
  | pass

structure Watch (ι : Type*) where
  current : Option ι := none
  used : List ι := []
  strays : ℕ := 0

variable {ε ι : Type*}

def see (watch : Watch ι) : Sign ι → Watch ι
  | .settle permission => { watch with current := permission }
  | .use =>
    match watch.current with
    | some permission => { watch with current := none, used := watch.used ++ [permission] }
    | none => { watch with strays := watch.strays + 1 }
  | .pass => watch

section Watching
variable (sign : ε → Sign ι)

def watch (events : List ε) : Watch ι := (events.map sign).foldl see {}

/-- The permissions that were given, used or not. -/
def granted (events : List ε) : List ι :=
  events.filterMap fun event =>
    match sign event with
    | .settle permission => permission
    | _ => none

def uses (events : List ε) : ℕ :=
  events.countP fun event =>
    match sign event with
    | .use => true
    | _ => false

theorem watch_append (events block : List ε) :
    watch sign (events ++ block) = (block.map sign).foldl see (watch sign events) := by
  unfold watch
  rw [List.map_append, List.foldl_append]

theorem watch_concat (events : List ε) (event : ε) : watch sign (events ++ [event]) = see (watch sign events) (sign event) :=
  watch_append sign events [event]

theorem granted_append (events block : List ε) :
    granted sign (events ++ block) = granted sign events ++ granted sign block := List.filterMap_append

theorem uses_append (events block : List ε) : uses sign (events ++ block) = uses sign events + uses sign block :=
  List.countP_append

variable {sign}

theorem watch_pass {events block : List ε} (passes : ∀ event ∈ block, sign event = .pass) :
    watch sign (events ++ block) = watch sign events := by
  induction block using List.reverseRecOn with
  | nil => rw [List.append_nil]
  | append_singleton block event ih =>
    have last := passes event (by simp)
    rw [← List.append_assoc, watch_concat, last, ih fun earlier member => passes earlier (List.mem_append_left _ member)]
    rfl

/-- Permissions are used in the order in which they were given, and none of them twice. -/
theorem used_sublist (events : List ε) :
    List.Sublist ((watch sign events).used ++ (watch sign events).current.toList) (granted sign events) := by
  induction events using List.reverseRecOn with
  | nil => exact List.Sublist.slnil
  | append_singleton events event ih =>
    have earlier : List.Sublist (watch sign events).used (granted sign events) :=
      (List.sublist_append_left _ _).trans ih
    rw [watch_concat, granted_append]
    cases signed : sign event with
    | settle permission =>
      have given : granted sign [event] = permission.toList := by
        unfold granted
        cases permission <;> simp [signed]
      rw [given]
      exact earlier.append (List.Sublist.refl _)
    | use =>
      refine List.Sublist.trans ?_ (List.sublist_append_left _ _)
      unfold see
      cases current : (watch sign events).current with
      | some permission =>
        rw [current] at ih
        simpa using ih
      | none => simpa [current] using earlier
    | pass => exact ih.trans (List.sublist_append_left _ _)

theorem uses_eq (events : List ε) : uses sign events = (watch sign events).used.length + (watch sign events).strays := by
  induction events using List.reverseRecOn with
  | nil => rfl
  | append_singleton events event ih =>
    rw [watch_concat, uses_append, ih]
    cases signed : sign event with
    | settle permission => simp [uses, see, signed]
    | use =>
      unfold see
      cases current : (watch sign events).current <;> simp [uses, signed] <;> omega
    | pass => simp [uses, see, signed]

end Watching
end Permit
