import HierarchyAccessors.Proofs.Queries
import Mathlib.Data.List.Induction

/-!
# Reads over time

In a session accessors are created for fields, copied and read, while the hierarchy changes its
answers. The history of an accessor is what came of its reads, and for a copy of what its original
had read before as well.

**Theorem (`run_memoises`).** After any steps, every read in every history has asked the query of
its field and returned the answer as long as no value was set; from then on it has asked nothing and
returned the first value that was set. A read has no effect on an accessor that is neither the one
that is read nor a later copy of it.

The invariant of an accessor, `Tracked.Inv`, ties the value in its slot to its history: the cached
value is the first set value. A read extends the history by what the invariant says, and the other
steps only bring new accessors.
-/

namespace HierarchyAccessors

variable {Handle : Type}

/-! ## Sessions -/

/-- What came of a read. -/
structure Reading (Handle : Type) where
  /-- The hierarchy at the time. -/
  hierarchy : Hierarchy Id Handle
  /-- What the hierarchy was asked. -/
  queries : List Query
  /-- What was returned. -/
  value : Found Handle

/-- An accessor with the field that it was created for and its history, earliest read first. -/
structure Tracked (Handle : Type) where
  field : ResolvedField
  accessor : Accessor Handle
  history : List (Reading Handle)

namespace Tracked

def create (field : ResolvedField) : Tracked Handle :=
  ⟨field, .ofField field, []⟩

/-- Reads the accessor and adds what came of it to the history. -/
def read (tracked : Tracked Handle) (hierarchy : Hierarchy Id Handle) : Tracked Handle :=
  let ((value, accessor), queries) := ((tracked.accessor.read hierarchy.recording).run []).run
  ⟨tracked.field, accessor, tracked.history ++ [⟨hierarchy, queries, value⟩]⟩

end Tracked

/-- A step of a session. Accessors are numbered in the order in which they come. -/
inductive Step (Handle : Type)
  | create (field : ResolvedField)
  /-- A copy has the slot and the history of its original. -/
  | clone (index : Nat)
  | read (index : Nat)
  /-- From now on the hierarchy gives other answers. -/
  | change (hierarchy : Hierarchy Id Handle)

structure Session (Handle : Type) where
  hierarchy : Hierarchy Id Handle
  accessors : List (Tracked Handle)

namespace Session

/-- The session after a step. Without an accessor of that number nothing happens. -/
def step (session : Session Handle) : Step Handle → Session Handle
  | .create field => { session with accessors := session.accessors ++ [.create field] }
  | .clone index =>
    { session with accessors := session.accessors ++ session.accessors[index]?.toList }
  | .read index =>
    { session with accessors := session.accessors.modify index (·.read session.hierarchy) }
  | .change hierarchy => { session with hierarchy }

def run (session : Session Handle) (steps : List (Step Handle)) : Session Handle :=
  steps.foldl step session

/-- The session before its first step. -/
def start (hierarchy : Hierarchy Id Handle) : Session Handle :=
  ⟨hierarchy, []⟩

end Session

/-! ## What a history should be -/

/-- The first value of a history that is set. -/
def firstSet? (history : List (Reading Handle)) : Option (Found Handle) :=
  (history.map (·.value)).find? Found.isNonNull

theorem Found.isNonNull_eq_false_iff {value : Found Handle} :
    value.isNonNull = false ↔ value = .one none := by
  rcases value with (_ | _) | _ <;> simp [isNonNull]

theorem firstSet?_eq_none_iff {history : List (Reading Handle)} :
    firstSet? history = none ↔ ∀ reading ∈ history, reading.value = .one none := by
  simp [firstSet?, Found.isNonNull_eq_false_iff]

theorem firstSet?_append_singleton (history : List (Reading Handle)) (reading : Reading Handle) :
    firstSet? (history ++ [reading]) =
      (firstSet? history).or (Option.filter Found.isNonNull (some reading.value)) := by
  simp [firstSet?, Option.filter]

/-- What a read gives after the earlier ones. -/
structure Reading.Follows (field : ResolvedField) (earlier : List (Reading Handle))
    (reading : Reading Handle) : Prop where
  asks : firstSet? earlier = none →
    reading.queries = [field.query] ∧ reading.value = (field.query.ask reading.hierarchy).run
  keeps : ∀ value, firstSet? earlier = some value → reading.queries = [] ∧ reading.value = value

/-- Every read follows from those before it. -/
def Memoised (field : ResolvedField) (history : List (Reading Handle)) : Prop :=
  ∀ earlier reading later, history = earlier ++ reading :: later → reading.Follows field earlier

namespace Memoised

variable {field : ResolvedField} {history : List (Reading Handle)} {reading : Reading Handle}

theorem nil : Memoised field ([] : List (Reading Handle)) := by
  intro earlier reading later parts
  simp at parts

theorem append_singleton (h : Memoised field history) (next : reading.Follows field history) :
    Memoised field (history ++ [reading]) := by
  intro earlier middle later parts
  rcases later.eq_nil_or_concat with rfl | ⟨later, last, rfl⟩
  · obtain ⟨rfl, same⟩ := List.append_inj' parts rfl
    cases same
    exact next
  · rw [List.concat_eq_append, ← List.cons_append, ← List.append_assoc] at parts
    exact h earlier middle later (List.append_inj' parts rfl).1

theorem of_append (h : Memoised field (history ++ [reading])) :
    Memoised field history ∧ reading.Follows field history := by
  refine ⟨fun earlier middle later parts => h earlier middle (later ++ [reading]) ?_,
    h history reading [] rfl⟩
  rw [parts, List.append_assoc, List.cons_append]

/-- A read asks as long as nothing but null has been read. -/
theorem queries_ne_nil_iff {earlier : List (Reading Handle)} (h : reading.Follows field earlier) :
    reading.queries ≠ [] ↔ ∀ r ∈ earlier, r.value = .one none := by
  rw [← firstSet?_eq_none_iff]
  cases first : firstSet? earlier with
  | none => simp [(h.asks first).1]
  | some value => simp [(h.keeps value first).1]

/-- A list of matches is set even if it is empty. -/
theorem isNonNull_of_all (plural : field.lookup.plurality = .all)
    {earlier : List (Reading Handle)} (h : reading.Follows field earlier) :
    reading.value.isNonNull = true := by
  cases first : firstSet? earlier with
  | some value =>
    rw [(h.keeps value first).2]
    exact List.find?_some first
  | none =>
    rw [(h.asks first).2, field.query_eq]
    cases lookup : field.lookup with
    | mk scope plurality =>
      obtain rfl : plurality = .all := by rwa [lookup] at plural
      cases scope <;> rfl

/-- All matches are looked up at most once. -/
theorem length_queries_le (plural : field.lookup.plurality = .all) (h : Memoised field history) :
    (history.flatMap (·.queries)).length ≤ 1 := by
  induction history using List.reverseRecOn with
  | nil => simp
  | append_singleton history reading ih =>
    obtain ⟨before, next⟩ := h.of_append
    cases first : firstSet? history with
    | some value => simpa [(next.keeps value first).1] using ih before
    | none =>
      -- An earlier read would have set a value, so this one is the first.
      rcases history.eq_nil_or_concat with rfl | ⟨earlier, last, rfl⟩
      · simp [(next.asks first).1]
      · rw [List.concat_eq_append] at before first
        have null := firstSet?_eq_none_iff.1 first last (by simp)
        have set := isNonNull_of_all plural before.of_append.2
        rw [null] at set
        cases set

end Memoised

/-! ## The invariant of an accessor -/

/-- The accessor asks what its field says, and the cached value is the first set value of its
history. -/
structure Tracked.Inv (tracked : Tracked Handle) : Prop where
  query : tracked.accessor.query = tracked.field.query
  cached : tracked.accessor.cached? = firstSet? tracked.history
  memoised : Memoised tracked.field tracked.history

namespace Tracked.Inv

theorem create (field : ResolvedField) : (Tracked.create field : Tracked Handle).Inv where
  query := Accessor.query_ofField field
  cached := rfl
  memoised := .nil

theorem read {tracked : Tracked Handle} (inv : tracked.Inv) (hierarchy : Hierarchy Id Handle) :
    (tracked.read hierarchy).Inv := by
  cases first : firstSet? tracked.history with
  | some value =>
    have cached : tracked.accessor.cached? = some value := inv.cached.trans first
    have read : tracked.read hierarchy =
        { tracked with history := tracked.history ++ [⟨hierarchy, [], value⟩] } := by
      rw [Tracked.read, Accessor.run_read_of_cached cached]
      rfl
    rw [read]
    refine ⟨inv.query, ?_, inv.memoised.append_singleton ⟨?_, ?_⟩⟩
    · rw [firstSet?_append_singleton, first, cached, Option.some_or]
    · intro none
      rw [first] at none
      cases none
    · intro other same
      rw [first] at same
      cases same
      exact ⟨rfl, rfl⟩
  | none =>
    have cached : tracked.accessor.cached? = none := inv.cached.trans first
    let value := (tracked.field.query.ask hierarchy).run
    have read : tracked.read hierarchy =
        ⟨tracked.field, { tracked.accessor with slot := some value },
          tracked.history ++ [⟨hierarchy, [tracked.field.query], value⟩]⟩ := by
      rw [Tracked.read, Accessor.run_read_of_uncached cached, inv.query]
      rfl
    rw [read]
    refine ⟨inv.query, ?_, inv.memoised.append_singleton ⟨fun _ => ⟨rfl, rfl⟩, ?_⟩⟩
    · rw [firstSet?_append_singleton, first, Option.none_or]
      rfl
    · intro value same
      rw [first] at same
      cases same

end Tracked.Inv

/-! ## Sessions keep the invariant -/

namespace Session

variable {session : Session Handle}

theorem inv_step (inv : ∀ tracked ∈ session.accessors, tracked.Inv) (step : Step Handle) :
    ∀ tracked ∈ (session.step step).accessors, tracked.Inv := by
  cases step with
  | create field =>
    intro tracked mem
    rcases List.mem_append.1 mem with mem | mem
    · exact inv tracked mem
    · obtain rfl := List.mem_singleton.1 mem
      exact .create field
  | clone index =>
    intro tracked mem
    rcases List.mem_append.1 mem with mem | mem
    · exact inv tracked mem
    · exact inv tracked (List.mem_of_getElem? (Option.mem_toList.1 mem))
  | read index =>
    intro tracked mem
    obtain ⟨k, get⟩ := List.mem_iff_getElem?.1 mem
    rw [step, List.getElem?_modify, Option.map_eq_map] at get
    obtain ⟨original, found, rfl⟩ := Option.map_eq_some_iff.1 get
    have before := inv original (List.mem_of_getElem? found)
    split
    · exact before.read session.hierarchy
    · exact before
  | change hierarchy => exact inv

/-- The steps keep the invariant of every accessor, and new accessors have it. -/
theorem inv_run (inv : ∀ tracked ∈ session.accessors, tracked.Inv) (steps : List (Step Handle)) :
    ∀ tracked ∈ (session.run steps).accessors, tracked.Inv := by
  induction steps generalizing session with
  | nil => exact inv
  | cons step steps ih => exact ih (inv_step inv step)

end Session

/-! ## What a read has no effect on -/

/-- Where the accessors come from after a step: for each its number in an earlier session, or for a
copy of one that was there, and of copies of it, the number of that one. Others have none. -/
def Step.origins (origins : List (Option Nat)) : Step Handle → List (Option Nat)
  | create _ => origins ++ [none]
  | clone index => origins ++ origins[index]?.toList
  | read _ | change _ => origins

namespace Session

/-- Where the accessors after the steps come from in the session. -/
def origins (session : Session Handle) (steps : List (Step Handle)) : List (Option Nat) :=
  steps.foldl Step.origins ((List.range session.accessors.length).map some)

/-- The sessions differ at most in the accessors that come from number `index`. -/
structure AgreeBut (index : Nat) (origins : List (Option Nat)) (session other : Session Handle) :
    Prop where
  hierarchy : session.hierarchy = other.hierarchy
  length : session.accessors.length = origins.length
  length_other : other.accessors.length = origins.length
  accessors (k : Nat) :
    origins[k]? ≠ some (some index) → session.accessors[k]? = other.accessors[k]?

namespace AgreeBut

variable {index : Nat} {origins : List (Option Nat)} {session other : Session Handle}

/-- At most one accessor is added to both sessions, and it is the same unless it comes from number
`index`. -/
theorem append (h : AgreeBut index origins session other) (origin : Option (Option Nat))
    {added added' : Option (Tracked Handle)} (length : added.isSome = origin.isSome)
    (length_other : added'.isSome = origin.isSome)
    (same : origin ≠ some (some index) → added = added') :
    AgreeBut index (origins ++ origin.toList)
      { session with accessors := session.accessors ++ added.toList }
      { other with accessors := other.accessors ++ added'.toList } where
  hierarchy := h.hierarchy
  length := by
    cases added <;> cases origin <;> simp_all [h.length]
  length_other := by
    cases added' <;> cases origin <;> simp_all [h.length_other]
  accessors k elsewhere := by
    -- Number `k` was there before, is the added one or is none.
    simp only [List.getElem?_append, h.length, h.length_other] at elsewhere ⊢
    split
    · rename_i lt
      rw [if_pos lt] at elsewhere
      exact h.accessors k elsewhere
    · rename_i ge
      rw [if_neg ge] at elsewhere
      cases position : k - origins.length with
      | zero =>
        rw [position] at elsewhere
        rw [same fun eq => elsewhere (by rw [eq]; rfl)]
      | succ n => cases added <;> cases added' <;> simp

theorem step (h : AgreeBut index origins session other) (step : Step Handle) :
    AgreeBut index (step.origins origins) (session.step step) (other.step step) := by
  cases step with
  | create field =>
    have new : some (Tracked.create field : Tracked Handle) = some (.create field) := rfl
    exact h.append (some none) rfl rfl fun _ => new
  | clone k =>
    have original : session.accessors[k]?.isSome = origins[k]?.isSome := by grind [h.length]
    have original' : other.accessors[k]?.isSome = origins[k]?.isSome := by grind [h.length_other]
    exact h.append origins[k]? original original' (h.accessors k)
  | read k =>
    refine ⟨h.hierarchy, ?_, ?_, fun j elsewhere => ?_⟩
    · exact (List.length_modify ..).trans h.length
    · exact (List.length_modify ..).trans h.length_other
    · simp only [Session.step, List.getElem?_modify, h.hierarchy, h.accessors j elsewhere]
  | change hierarchy => exact ⟨rfl, h.length, h.length_other, h.accessors⟩

theorem run (h : AgreeBut index origins session other) (steps : List (Step Handle)) :
    AgreeBut index (steps.foldl Step.origins origins) (session.run steps) (other.run steps) := by
  induction steps generalizing origins session other with
  | nil => exact h
  | cons step steps ih => exact ih (h.step step)

theorem read (session : Session Handle) (index : Nat) :
    AgreeBut index ((List.range session.accessors.length).map some) (session.step (.read index))
      session where
  hierarchy := rfl
  length := by simp [Session.step]
  length_other := by simp
  accessors k elsewhere := by
    rw [Session.step, List.getElem?_modify]
    by_cases lt : k < session.accessors.length
    · have ne : index ≠ k := by
        rintro rfl
        simp [lt] at elsewhere
      simp [ne]
    · simp [Nat.not_lt.1 lt]

end AgreeBut

end Session

/-! ## What every session does -/

/-- **Accessors memoise.** After any steps of a session, every history has this form: a read after
no set value asks the field's query, once, and returns the answer; a read after a set value asks
nothing and returns the first one. So a read asks exactly as long as only null has been read, and an
accessor of all matches asks at most once. Had number `index` been read in between, whatever steps
follow, every accessor that is not number `index` or a later copy of it would be the same, with all
its reads. -/
theorem run_memoises (hierarchy : Hierarchy Id Handle) (steps : List (Step Handle)) :
    let session := (Session.start hierarchy).run steps
    (∀ tracked ∈ session.accessors,
      Memoised tracked.field tracked.history ∧
      (∀ earlier reading later, tracked.history = earlier ++ reading :: later →
        (reading.queries ≠ [] ↔ ∀ r ∈ earlier, r.value = .one none)) ∧
      (tracked.field.lookup.plurality = .all → (tracked.history.flatMap (·.queries)).length ≤ 1)) ∧
    ∀ (index : Nat) (more : List (Step Handle)) (k : Nat),
      (session.origins more)[k]? ≠ some (some index) →
      ((session.step (.read index)).run more).accessors[k]? = (session.run more).accessors[k]? := by
  intro session
  refine ⟨fun tracked mem => ?histories, fun index more => ?others⟩
  case histories =>
    have none : ∀ tracked ∈ (Session.start hierarchy).accessors, tracked.Inv := by
      intro tracked mem
      cases mem
    have memoised := (Session.inv_run none steps tracked mem).memoised
    exact ⟨memoised, fun earlier reading later parts =>
      Memoised.queries_ne_nil_iff (memoised earlier reading later parts),
      fun plural => memoised.length_queries_le plural⟩
  case others => exact ((Session.AgreeBut.read session index).run more).accessors

/-- A copy shares what its original has read before, and nothing later. -/
theorem run_memoises_copy :
    let answering (found : Option String) : Hierarchy Id String :=
      ⟨fun _ => found, fun _ => found.toList, fun _ _ => found, fun _ _ => found.toList,
        fun _ _ => found, fun _ _ => found.toList⟩
    let field : ResolvedField := ⟨"_body", ⟨1, "Player", none, []⟩, .named "Body", ⟨4⟩⟩
    let session := (Session.start (answering none)).run
      [.create field, .read 0, .clone 0, .change (answering (some "a")), .read 0,
        .change (answering (some "b")), .read 0, .read 1]
    session.accessors.map (fun tracked => tracked.history.map fun r => (r.queries, r.value)) =
      [[([.inAncestors "Body" true], .one none), ([.inAncestors "Body" true], .one (some "a")),
          ([], .one (some "a"))],
        [([.inAncestors "Body" true], .one none), ([.inAncestors "Body" true], .one (some "b"))]] ∧
      (∀ tracked ∈ session.accessors, Memoised tracked.field tracked.history) ∧
      ((session.step (.read 0)).run [.clone 1, .read 2]).accessors[2]? =
        (session.run [.clone 1, .read 2]).accessors[2]? := by
  intro answering field session
  obtain ⟨histories, others⟩ := run_memoises (answering none)
    [.create field, .read 0, .clone 0, .change (answering (some "a")), .read 0,
      .change (answering (some "b")), .read 0, .read 1]
  exact ⟨rfl, fun tracked mem => (histories tracked mem).1,
    others 0 [.clone 1, .read 2] 2 (by decide)⟩

end HierarchyAccessors
