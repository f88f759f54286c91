import HierarchyAccessors.Environment
import Mathlib.Data.List.Induction

/-!
# Guards over time

In a session variables are set and unset under guards, the environment is locked, and what the steps
hand out is dropped again, in any order as long as the guards of one variable go latest first.

**Theorem (`run_restores`).** After any such steps every variable has the value that the newest
guard held on it wrote, or its initial value if none is held.

A guard remembers what it saw, and nothing ties it to the other guards of its variable. The
invariant `GuardSession.Inv` does: what a held guard puts back is the value that the guards held
before it leave to the variable. So dropping the newest one leaves what the others do.
-/

namespace HierarchyAccessors

/-- A step of a session. Steps are numbered from 0 on, and what a step hands out goes by its
number. -/
inductive GuardStep
  /-- Sets a variable under a guard. -/
  | set (key value : String)
  /-- Unsets a variable under a guard. -/
  | unset (key : String)
  /-- Locks the environment. The lock is re-entrant and does not stop the steps that follow. -/
  | lock
  /-- Drops the guard or the lock that the step `number` has handed out. -/
  | drop (number : Nat)
deriving DecidableEq

namespace GuardStep

/-- The variable that the step changes, with its new value. -/
def change? : GuardStep → Option (String × Option String)
  | set key value => some (key, some value)
  | unset key => some (key, none)
  | lock => none
  | drop _ => none

/-- Whether a variable may have the name and the value. -/
def Valid : GuardStep → Prop
  | set key value => (key ≠ "" ∧ '=' ∉ key.toList ∧ '\x00' ∉ key.toList) ∧ '\x00' ∉ value.toList
  | unset key => key ≠ "" ∧ '=' ∉ key.toList ∧ '\x00' ∉ key.toList
  | lock => True
  | drop _ => True

instance : DecidablePred Valid
  | set _ _ => inferInstanceAs (Decidable (_ ∧ _))
  | unset _ => inferInstanceAs (Decidable (_ ∧ _))
  | lock => inferInstanceAs (Decidable True)
  | drop _ => inferInstanceAs (Decidable True)

end GuardStep

/-- What a step hands out. -/
inductive GuardHandle
  | guard (guard : EnvironmentGuard)
  | lock

/-- The environment, with what each step has handed out and is not dropped. -/
structure GuardSession where
  environment : Environment
  handles : List (Option GuardHandle)

namespace GuardSession

/-! ## Sessions -/

def start (initial : Environment) : GuardSession :=
  ⟨initial, []⟩

/-- The session with a new guard and the environment that it comes with. -/
def add (session : GuardSession) (made : EnvironmentGuard × Environment) : GuardSession :=
  ⟨made.2, session.handles ++ [some (.guard made.1)]⟩

/-- The session after a step. Where nothing is left to drop nothing happens. -/
def step (session : GuardSession) : GuardStep → GuardSession
  | .set key value => session.add (session.environment.guardSet key value)
  | .unset key => session.add (session.environment.guardUnset key)
  | .lock => { session with handles := session.handles ++ [some .lock] }
  | .drop number =>
    let handles := session.handles.set number none ++ [none]
    match session.handles[number]? with
    | some (some (.guard guard)) => ⟨session.environment.restore guard, handles⟩
    | _ => { session with handles }

/-- The session after the steps, unless the host refuses the name or the value of one. -/
def run? (session : GuardSession) (steps : List GuardStep) : Option GuardSession :=
  steps.foldlM (fun session step => if step.Valid then some (session.step step) else none) session

variable {session : GuardSession} {steps : List GuardStep} {step : GuardStep}
  {key : String} {value : Option String} {number : Nat}

theorem step_of_change (h : step.change? = some (key, value)) :
    session.step step = ⟨session.environment.update key value,
      session.handles ++ [some (.guard ⟨key, session.environment.get? key⟩)]⟩ := by
  cases step with
  | set | unset =>
    cases h
    rfl
  | lock | drop => cases h

theorem run?_append_singleton {before : GuardSession} (ran : run? session steps = some before)
    (valid : step.Valid) : run? session (steps ++ [step]) = some (before.step step) := by
  unfold run? at ran ⊢
  rw [List.foldlM_append, ran]
  simp [valid]

/-! ## What a variable should be -/

/-- What the guard of the step `number` has written to which variable, as long as it is held. -/
def held? (steps : List GuardStep) (number : Nat) : Option (String × Option String) :=
  if .drop number ∈ steps.drop number then none else steps[number]?.bind GuardStep.change?

/-- The guard of the step `number` is held, and it has written the value to the variable. -/
def Holds (steps : List GuardStep) (key : String) (number : Nat) (value : Option String) : Prop :=
  held? steps number = some (key, value)

/-- What guards with these numbers and values leave to a variable: the value of the newest guard, or
without any guard the initial value. -/
inductive Leaves (initial : Option String) (guards : Nat → Option String → Prop) :
    Option String → Prop
  | newest {number : Nat} {value : Option String} (held : guards number value)
      (latest : ∀ other v, guards other v → other ≤ number) : Leaves initial guards value
  | untouched (none : ∀ number v, ¬guards number v) : Leaves initial guards initial

/-- The guard of the step `number` is the newest one held on its variable, if it is held at all. -/
def IsNewest (steps : List GuardStep) (number : Nat) : Prop :=
  ∀ key value, Holds steps key number value → ∀ other v, Holds steps key other v → other ≤ number

/-- Whenever a guard is dropped, it is the newest one held on its variable. -/
def LatestFirst (steps : List GuardStep) : Prop :=
  ∀ done number, done ++ [.drop number] <+: steps → IsNewest done number

theorem held?_append_singleton (steps : List GuardStep) (step : GuardStep) (number : Nat) :
    held? (steps ++ [step]) number =
      if step = .drop number then none
      else if number = steps.length then step.change?
      else held? steps number := by
  have same : .drop number ∈ [step] ↔ step = .drop number := by
    rw [List.mem_singleton, eq_comm]
  unfold held?
  rcases Nat.lt_trichotomy number steps.length with lt | rfl | gt
  · rw [List.drop_append_of_le_length (Nat.le_of_lt lt), List.getElem?_append_left lt,
      if_neg (Nat.ne_of_lt lt)]
    simp only [List.mem_append, same]
    split_ifs <;> simp_all
  · rw [List.drop_left, List.getElem?_concat_length]
    simp [same]
  · rw [List.drop_eq_nil_of_le (by simp; omega), List.getElem?_eq_none (by simp; omega),
      List.drop_eq_nil_of_le (Nat.le_of_lt gt), List.getElem?_eq_none (Nat.le_of_lt gt),
      if_neg (Nat.ne_of_gt gt)]
    simp

theorem Leaves.congr {initial : Option String} {guards guards' : Nat → Option String → Prop}
    (h : Leaves initial guards value) (same : ∀ number v, guards' number v ↔ guards number v) :
    Leaves initial guards' value := by
  cases h with
  | newest held latest =>
    exact .newest ((same _ _).2 held) fun other v h => latest other v ((same _ _).1 h)
  | untouched none => exact .untouched fun number v h => none number v ((same _ _).1 h)

/-- Without a guard the initial value is left. -/
theorem Leaves.eq_initial {initial : Option String} {guards : Nat → Option String → Prop}
    (h : Leaves initial guards value) (none : ∀ number v, ¬guards number v) : value = initial := by
  cases h with
  | newest held => exact absurd held (none _ _)
  | untouched => rfl

/-- A guard is on one variable. -/
theorem Holds.key_eq {key' : String} {value' : Option String} (h : Holds steps key number value)
    (h' : Holds steps key' number value') : key = key' :=
  congrArg Prod.fst (Option.some.inj (h.symm.trans h'))

/-- A guard comes from a step. -/
theorem Holds.exists_step (h : Holds steps key number value) :
    ∃ step, steps[number]? = some step ∧ step.change? = some (key, value) := by
  unfold Holds held? at h
  split at h
  · cases h
  · exact Option.bind_eq_some_iff.1 h

theorem Holds.lt_length (h : Holds steps key number value) : number < steps.length := by
  obtain ⟨step, found, -⟩ := h.exists_step
  exact (List.getElem?_eq_some_iff.1 found).1

theorem not_holds_length : ¬Holds steps key steps.length value :=
  fun h => Nat.lt_irrefl _ h.lt_length

/-- A step that drops nothing adds at most its own guard. -/
theorem holds_append_iff (notDrop : ∀ n, step ≠ .drop n) :
    Holds (steps ++ [step]) key number value ↔
    Holds steps key number value ∨ number = steps.length ∧ step.change? = some (key, value) := by
  unfold Holds
  rw [held?_append_singleton, if_neg (notDrop number)]
  by_cases last : number = steps.length
  · have none : held? steps steps.length ≠ some (key, value) := not_holds_length
    simp [last, none]
  · simp [last]

/-- A drop takes one guard away. -/
theorem holds_drop_iff {n : Nat} : Holds (steps ++ [.drop n]) key number value ↔
    Holds steps key number value ∧ number ≠ n := by
  unfold Holds
  rw [held?_append_singleton]
  by_cases same : n = number
  · simp [same]
  · have other : GuardStep.drop n ≠ .drop number := by simpa using same
    rw [if_neg other]
    by_cases last : number = steps.length
    · have none : held? steps steps.length ≠ some (key, value) := not_holds_length
      simp [last, none, GuardStep.change?]
    · simp [last, Ne.symm same]

theorem getElem?_append_singleton_iff {α : Type} {xs : List α} {x y : α} {n : Nat} :
    (xs ++ [x])[n]? = some y ↔ xs[n]? = some y ∨ n = xs.length ∧ x = y := by
  rcases Nat.lt_trichotomy n xs.length with lt | rfl | gt
  · simp [List.getElem?_append_left lt, Nat.ne_of_lt lt]
  · simp
  · have none : (xs ++ [x])[n]? = none := by
      rw [List.getElem?_eq_none_iff, List.length_append]
      exact gt
    simp [none, Nat.ne_of_gt gt, Nat.le_of_lt gt]

/-! ## Orders of dropping -/

theorem isNewest_iff : IsNewest steps number ↔
    ∀ other < steps.length, number < other → (held? steps number).isSome = true →
      (held? steps other).map (·.1) ≠ (held? steps number).map (·.1) := by
  constructor
  · intro newest other _ newer some same
    obtain ⟨⟨key, value⟩, held⟩ := Option.isSome_iff_exists.1 some
    rw [held] at same
    obtain ⟨⟨_, v⟩, again, rfl⟩ := Option.map_eq_some_iff.1 same
    exact Nat.not_lt.2 (newest _ value held other v again) newer
  · intro check key value held other v again
    by_contra late
    refine check other again.lt_length (Nat.lt_of_not_le late) ?_ ?_
    · rw [held]
      rfl
    · rw [held, again]
      rfl

instance (steps : List GuardStep) (number : Nat) : Decidable (IsNewest steps number) :=
  decidable_of_iff' _ isNewest_iff

theorem latestFirst_iff : LatestFirst steps ↔
    ∀ place < steps.length, ∀ number < place, steps[place]? = some (.drop number) →
      IsNewest (steps.take place) number := by
  constructor
  · intro latestFirst place _ number _ dropped
    refine latestFirst _ number ?_
    have longer := List.take_prefix (place + 1) steps
    rwa [List.take_add_one, dropped] at longer
  · intro check done number sofar key value held
    obtain ⟨later, rfl⟩ := sofar
    have newest := check done.length (by simp) number held.lt_length (by simp)
    rw [List.append_assoc, List.take_left] at newest
    exact newest key value held

instance (steps : List GuardStep) : Decidable (LatestFirst steps) :=
  decidable_of_iff' _ latestFirst_iff

/-! ## The invariant -/

/-- The handles are those of the guards that are held. Each puts back what the guards held before it
leave to its variable, and the environment shows what all of them leave. -/
structure Inv (initial : Environment) (steps : List GuardStep) (session : GuardSession) : Prop where
  count : session.handles.length = steps.length
  chained : ∀ key number value, Holds steps key number value →
    ∃ before, session.handles[number]? = some (some (.guard ⟨key, before⟩)) ∧
      Leaves (initial.get? key) (fun other v => Holds steps key other v ∧ other < number) before
  held : ∀ number guard, session.handles[number]? = some (some (.guard guard)) →
    ∃ value, Holds steps guard.key number value
  shown : ∀ key, Leaves (initial.get? key) (Holds steps key) (session.environment.get? key)

namespace Inv

variable {initial : Environment}

theorem start (initial : Environment) : Inv initial [] (start initial) where
  count := rfl
  chained key number value h := absurd h.lt_length (Nat.not_lt_zero _)
  held number guard h := by simp [GuardSession.start] at h
  shown key := .untouched fun number v h => absurd h.lt_length (Nat.not_lt_zero _)

/-- A guard sees what the guards held before it leave to its variable. -/
theorem change (inv : Inv initial steps session) (h : step.change? = some (key, value)) :
    Inv initial (steps ++ [step]) (session.step step) := by
  have notDrop (n : Nat) : step ≠ .drop n := by
    rintro rfl
    cases h
  have earlier {k : String} {n : Nat} {v : Option String} (lt : n < steps.length) :
      Holds (steps ++ [step]) k n v ↔ Holds steps k n v := by
    simp [holds_append_iff notDrop, Nat.ne_of_lt lt]
  rw [step_of_change h]
  refine ⟨by simp [inv.count], fun k n v new => ?_, fun n guard found => ?_, fun k => ?_⟩
  · rcases (holds_append_iff notDrop).1 new with old | ⟨rfl, made⟩
    · obtain ⟨before, found, leaves⟩ := inv.chained k n v old
      exact ⟨before, getElem?_append_singleton_iff.2 (.inl found),
        leaves.congr fun other w => and_congr_left fun lt =>
          earlier (Nat.lt_trans lt old.lt_length)⟩
    · cases h.symm.trans made
      refine ⟨session.environment.get? key,
        getElem?_append_singleton_iff.2 (.inr ⟨inv.count.symm, rfl⟩),
        (inv.shown key).congr fun other w => ?_⟩
      exact ⟨fun ⟨new, lt⟩ => (earlier lt).1 new,
        fun old => ⟨(earlier old.lt_length).2 old, old.lt_length⟩⟩
  · rcases getElem?_append_singleton_iff.1 found with found | ⟨last, made⟩
    · obtain ⟨v, old⟩ := inv.held n guard found
      exact ⟨v, (earlier old.lt_length).2 old⟩
    · cases made
      exact ⟨value, (holds_append_iff notDrop).2 (.inr ⟨last.trans inv.count, h⟩)⟩
  · rw [Environment.get?_update]
    split
    · next same =>
      subst same
      refine .newest ((holds_append_iff notDrop).2 (.inr ⟨rfl, h⟩)) fun other w new => ?_
      rcases (holds_append_iff notDrop).1 new with old | ⟨rfl, -⟩
      · exact Nat.le_of_lt old.lt_length
      · exact Nat.le_refl _
    · next different =>
      refine (inv.shown k).congr fun other w => ?_
      rw [holds_append_iff notDrop, or_iff_left]
      rintro ⟨-, made⟩
      cases h.symm.trans made
      exact different rfl

/-- A lock is no guard. -/
theorem lock (inv : Inv initial steps session) :
    Inv initial (steps ++ [.lock]) (session.step .lock) := by
  have same (k : String) (n : Nat) (v : Option String) :
      Holds (steps ++ [.lock]) k n v ↔ Holds steps k n v := by
    simp [holds_append_iff, GuardStep.change?]
  refine ⟨by simp [GuardSession.step, inv.count], fun k n v new => ?_, fun n guard found => ?_,
    fun k => (inv.shown k).congr (same k)⟩
  · obtain ⟨before, found, leaves⟩ := inv.chained k n v ((same k n v).1 new)
    exact ⟨before, getElem?_append_singleton_iff.2 (.inl found),
      leaves.congr fun other w => and_congr_left fun _ => same k other w⟩
  · rcases getElem?_append_singleton_iff.1 found with found | ⟨-, made⟩
    · obtain ⟨v, old⟩ := inv.held n guard found
      exact ⟨v, (same guard.key n v).2 old⟩
    · cases made

/-- Without the newest guard of its variable, every other guard still puts back what it should. -/
theorem drop_of_shown (inv : Inv initial steps session) {n : Nat} {environment : Environment}
    (latest : IsNewest steps n)
    (shown : ∀ key, Leaves (initial.get? key) (Holds (steps ++ [.drop n]) key)
      (environment.get? key)) :
    Inv initial (steps ++ [.drop n]) ⟨environment, session.handles.set n none ++ [none]⟩ := by
  refine ⟨by simp [inv.count], fun k m v new => ?_, fun m guard found => ?_, shown⟩
  · obtain ⟨old, ne⟩ := holds_drop_iff.1 new
    obtain ⟨before, found, leaves⟩ := inv.chained k m v old
    refine ⟨before, getElem?_append_singleton_iff.2 (.inl ?_), leaves.congr fun other w => ?_⟩
    · rw [List.getElem?_set_ne ne.symm, found]
    · refine and_congr_left fun lt => holds_drop_iff.trans (and_iff_left_of_imp fun held => ?_)
      -- The dropped guard was none of those before.
      rintro rfl
      exact Nat.lt_irrefl _ (Nat.lt_of_lt_of_le lt (latest k w held m v old))
  · rcases getElem?_append_singleton_iff.1 found with found | ⟨-, made⟩
    · have ne : n ≠ m := by
        rintro rfl
        rw [List.getElem?_set_self'] at found
        simp at found
      rw [List.getElem?_set_ne ne] at found
      obtain ⟨v, old⟩ := inv.held m guard found
      exact ⟨v, holds_drop_iff.2 ⟨old, ne.symm⟩⟩
    · cases made

theorem drop (inv : Inv initial steps session) {n : Nat} (latest : IsNewest steps n) :
    Inv initial (steps ++ [.drop n]) (session.step (.drop n)) := by
  unfold GuardSession.step
  dsimp only
  split
  · next guard found =>
    refine inv.drop_of_shown latest fun k => ?_
    obtain ⟨value, held⟩ := inv.held n guard found
    obtain ⟨before, found', leaves⟩ := inv.chained guard.key n value held
    rw [Environment.restore, Environment.get?_update]
    split
    · next same =>
      subst same
      have puts : guard.before = before := by
        have one := found.symm.trans found'
        simp only [Option.some.injEq, GuardHandle.guard.injEq] at one
        rw [one]
      rw [puts]
      refine leaves.congr fun other w => holds_drop_iff.trans (and_congr_right fun old => ?_)
      exact ⟨Nat.lt_of_le_of_ne (latest _ _ held other w old), Nat.ne_of_lt⟩
    · next different =>
      refine (inv.shown k).congr fun other w =>
        holds_drop_iff.trans (and_iff_left_of_imp fun old => ?_)
      rintro rfl
      exact different (old.key_eq held)
  · next nothing =>
    refine inv.drop_of_shown latest fun k => (inv.shown k).congr fun other w =>
      holds_drop_iff.trans (and_iff_left_of_imp fun old => ?_)
    rintro rfl
    obtain ⟨before, found, -⟩ := inv.chained k other w old
    exact nothing _ found

/-- Every step keeps the invariant, as long as no guard is dropped before a newer one. -/
theorem next (inv : Inv initial steps session)
    (latest : ∀ n, step = .drop n → IsNewest steps n) :
    Inv initial (steps ++ [step]) (session.step step) := by
  cases step with
  | set key value => exact inv.change rfl
  | unset key => exact inv.change rfl
  | lock => exact inv.lock
  | drop n => exact inv.drop (latest n rfl)

end Inv

/-! ## Runs -/

variable {initial : Environment} {done : List GuardStep}

/-- The steps run, and the invariant holds after each. -/
theorem inv_of_run (valid : ∀ step ∈ steps, step.Valid) (latestFirst : LatestFirst steps)
    (sofar : done <+: steps) :
    ∃ session, run? (start initial) done = some session ∧ Inv initial done session := by
  induction done using List.reverseRecOn with
  | nil => exact ⟨start initial, rfl, .start initial⟩
  | append_singleton done step ih =>
    obtain ⟨before, ran, inv⟩ := ih ((List.prefix_append done [step]).trans sofar)
    have next : step ∈ steps := sofar.subset (by simp)
    refine ⟨before.step step, run?_append_singleton ran (valid step next), inv.next ?_⟩
    rintro n rfl
    exact latestFirst done n sofar

/-- **Guards restore.** After any valid steps that drop the guards of each variable latest first,
every variable has the value that its newest held guard wrote, or its initial value without one. So
the environment is the initial one when no guard is held, and a variable that no step changes keeps
its value. -/
theorem run_restores (initial : Environment) (steps : List GuardStep)
    (valid : ∀ step ∈ steps, step.Valid) (latestFirst : LatestFirst steps)
    (done : List GuardStep) (sofar : done <+: steps) :
    ∃ session, run? (start initial) done = some session ∧
      (∀ key, Leaves (initial.get? key) (Holds done key) (session.environment.get? key)) ∧
      ((∀ key number value, ¬Holds done key number value) →
        ∀ key, session.environment.get? key = initial.get? key) ∧
      ∀ key, (∀ step ∈ done, ∀ value, step.change? ≠ some (key, value)) →
        session.environment.get? key = initial.get? key := by
  obtain ⟨session, ran, inv⟩ := inv_of_run valid latestFirst sofar
  refine ⟨session, ran, inv.shown, fun none key => ?_, fun key unchanged => ?_⟩
  · exact (inv.shown key).eq_initial (none key)
  · refine (inv.shown key).eq_initial fun number value held => ?_
    obtain ⟨step, found, made⟩ := held.exists_step
    exact unchanged step (List.mem_of_getElem? found) value made

/-- The guard of another variable, and the lock, may be dropped at any time. -/
theorem run_restores_across_variables :
    let initial : Environment := ⟨[("A", "x")]⟩
    let steps : List GuardStep := [.set "A" "1", .set "B" "2", .lock, .unset "A", .drop 1, .drop 3,
      .drop 2, .drop 0]
    let done := steps.take 6
    (∀ step ∈ steps, step.Valid) ∧ LatestFirst steps ∧ done <+: steps ∧
      Holds done "A" 0 (some "1") ∧
      ∃ session, run? (start initial) done = some session ∧
        Leaves (some "x") (Holds done "A") (session.environment.get? "A") ∧
        session.environment.get? "A" = some "1" ∧ session.environment.get? "B" = none := by
  intro initial steps done
  have valid : ∀ step ∈ steps, step.Valid := by decide
  have latestFirst : LatestFirst steps := by decide
  have sofar : done <+: steps := List.take_prefix 6 steps
  obtain ⟨session, ran, shown, -, -⟩ := run_restores initial steps valid latestFirst done sofar
  have computed : (run? (start initial) done).map (·.environment.entries) = some [("A", "1")] := by
    decide
  have set : session.environment.entries = [("A", "1")] := by simpa [ran] using computed
  refine ⟨valid, latestFirst, sofar, by unfold Holds; decide, session, ran, shown "A", ?_, ?_⟩
  · rw [Environment.get?, set]
    rfl
  · rw [Environment.get?, set]
    rfl

end GuardSession

end HierarchyAccessors
