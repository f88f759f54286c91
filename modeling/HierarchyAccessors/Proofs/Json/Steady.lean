import HierarchyAccessors.Proofs.Json.Reordering

/-!
# Readers for which the order of entries is no matter

A reader is `Steady` if it accepts whole trees only and gives the same value for every reordering of
a tree that it accepts. Scalars are steady, and so is whatever is put together from steady readers:
lists (`steady_list`), records (`steady_record`), tagged records (`steady_tagged`).

The entries of a record are read one after the other, each adding to what has been read so far. Two
of them can be interchanged because fields of different names add to different parts
(`Field.Commutes`), and because a repeated field is refused in either order.
-/

namespace HierarchyAccessors.Json

/-- The reader gives the same value for every reordering of a tree that it accepts. -/
def OrderFree {α : Type} (read : Tree → Except Fault α) : Prop :=
  ∀ {t t' : Tree} {a : α}, read t = .ok a → Reordered t t' → read t' = .ok a

/-- The reader accepts whole trees only, and gives the same value for every reordering of a tree
that it accepts. -/
structure Steady {α : Type} (read : Tree → Except Fault α) : Prop where
  whole : ∀ {t : Tree} {a : α}, t.Honest → read t = .ok a → t.Whole
  reordered : OrderFree read

namespace Tree

theorem Honest.item {ts : List Tree} {ending : Ending} (h : (array ts ending).Honest) {t : Tree}
    (mem : t ∈ ts) : t.Honest := fun q hq =>
  h q (by rw [literals, itemsLiterals_eq_flatMap]; exact List.mem_flatMap.2 ⟨t, mem, hq⟩)

theorem Honest.entry {es : List (Quoted × Tree)} {ending : Ending}
    (h : (object es ending).Honest) {e : Quoted × Tree} (mem : e ∈ es) :
    e.1.Honest ∧ e.2.Honest := by
  have all : ∀ q ∈ e.1 :: e.2.literals, q.Honest := fun q hq =>
    h q (by rw [literals, entriesLiterals_eq_flatMap]; exact List.mem_flatMap.2 ⟨e, mem, hq⟩)
  exact ⟨all _ List.mem_cons_self, fun q hq => all q (List.mem_cons_of_mem _ hq)⟩

end Tree

theorem Ending.check_eq_ok_iff {ending : Ending} {u : Unit} :
    ending.check = .ok u ↔ ending = .closed := by
  rw [check, ← fault?_eq_none_iff]
  split <;> simp_all

section

variable {α β : Type} {read : Tree → Except Fault α}

theorem Steady.bind (steady : Steady read) (f : α → Except Fault β) :
    Steady fun t => read t >>= f where
  whole honest h := by
    obtain ⟨a, first, -⟩ := bind_eq_ok_iff.1 h
    exact steady.whole honest first
  reordered h same := by
    obtain ⟨a, first, more⟩ := bind_eq_ok_iff.1 h
    exact bind_eq_ok_iff.2 ⟨a, steady.reordered first same, more⟩

theorem Steady.map (steady : Steady read) (f : α → β) : Steady fun t => (read t).map f where
  whole honest h := by
    obtain ⟨a, first, -⟩ := map_eq_ok_iff.1 h
    exact steady.whole honest first
  reordered h same := by
    obtain ⟨a, first, value⟩ := map_eq_ok_iff.1 h
    exact map_eq_ok_iff.2 ⟨a, steady.reordered first same, value⟩

theorem content_eq_ok_iff {value : Except Fault α} {a : α} :
    Reader.content value = .ok a ↔ value = .ok a := by
  cases value <;> simp [Reader.content, Except.mapError]

theorem Steady.content (steady : Steady read) : Steady fun t => Reader.content (read t) where
  whole honest h := steady.whole honest (content_eq_ok_iff.1 h)
  reordered h same := content_eq_ok_iff.2 (steady.reordered (content_eq_ok_iff.1 h) same)

/-- A reader that accepts nothing. -/
theorem steady_refusal (fault : Tree → Fault) :
    Steady fun t => (.error (fault t) : Except Fault α) where
  whole _ h := nomatch h
  reordered h _ := nomatch h

end

namespace Reader

variable {α : Type}

/-! ## Scalars -/

/-- A reader of strings, whatever it makes of them, and of numbers. -/
theorem steady_scalar {read : Tree → Except Fault α}
    (scalar : ∀ {t a}, read t = .ok a →
      (∃ q s, t = .string q ∧ q.decode = .ok s) ∨ ∃ n, t = .number n) : Steady read where
  whole _ h := by
    rcases scalar h with ⟨q, s, rfl, spells⟩ | ⟨n, rfl⟩
    · exact Quoted.skipFault?_of_decode spells
    · rfl
  reordered h same := by
    rcases scalar h with ⟨q, s, rfl, -⟩ | ⟨n, rfl⟩
    · cases same
      exact h
    · cases same
      exact h

theorem steady_string (depth : Nat) : Steady (string depth) := by
  refine steady_scalar fun {t s} h => ?_
  cases t with
  | string q => exact .inl ⟨q, s, rfl, h⟩
  | _ => cases h

theorem steady_bool (depth : Nat) : Steady (bool depth) where
  whole := by
    intro t b _ h
    cases t with
    | bool => rfl
    | _ => cases h
  reordered h same := by
    cases same with
    | bool => exact h
    | _ => cases h

theorem steady_null (depth : Nat) : Steady (null depth) where
  whole := by
    intro t u _ h
    cases t with
    | null => rfl
    | _ => cases h
  reordered h same := by
    cases same with
    | null => exact h
    | _ => cases h

theorem steady_integer (low high : Int) (depth : Nat) : Steady (integer low high depth) := by
  refine steady_scalar fun {t i} h => ?_
  cases t with
  | number n => exact .inr ⟨n, rfl⟩
  | _ => cases h

theorem steady_nullable {value : Reader α} (steady : ∀ depth, Steady (value depth)) (depth : Nat) :
    Steady (nullable value depth) where
  whole := by
    intro t a honest h
    cases t with
    | null => rfl
    | _ => exact ((steady depth).map some).whole honest h
  reordered h same := by
    cases same with
    | null => exact h
    | bool | number | string | array | object =>
      exact ((steady depth).map some).reordered h (by constructor <;> assumption)

/-! ## Lists -/

theorem mapM_cons_eq_ok_iff {item : Tree → Except Fault α} {t : Tree} {ts : List Tree}
    {as : List α} : (t :: ts).mapM item = .ok as ↔
      ∃ b bs, item t = .ok b ∧ ts.mapM item = .ok bs ∧ as = b :: bs := by
  rw [List.mapM_cons]
  constructor
  · intro h
    obtain ⟨b, first, h⟩ := bind_eq_ok_iff.1 h
    obtain ⟨bs, more, h⟩ := bind_eq_ok_iff.1 h
    cases h
    exact ⟨b, bs, first, more, rfl⟩
  · rintro ⟨b, bs, first, more, rfl⟩
    rw [first, more]
    rfl

theorem whole_of_mapM {item : Tree → Except Fault α} (steady : Steady item) {ts : List Tree}
    {as : List α} (honest : ∀ t ∈ ts, t.Honest) (h : ts.mapM item = .ok as) :
    ∀ t ∈ ts, t.Whole := by
  induction ts generalizing as with
  | nil => simp
  | cons t ts ih =>
    obtain ⟨_, _, first, more, -⟩ := mapM_cons_eq_ok_iff.1 h
    obtain ⟨honest₁, honest₂⟩ := List.forall_mem_cons.1 honest
    exact List.forall_mem_cons.2 ⟨steady.whole honest₁ first, ih honest₂ more⟩

theorem mapM_reordered {item : Tree → Except Fault α} (steady : Steady item) {ts ts' : List Tree}
    {as : List α} (h : ts.mapM item = .ok as) (same : List.Forall₂ Reordered ts ts') :
    ts'.mapM item = .ok as := by
  induction same generalizing as with
  | nil => exact h
  | cons first _ ih =>
    obtain ⟨b, bs, value, values, eq⟩ := mapM_cons_eq_ok_iff.1 h
    exact mapM_cons_eq_ok_iff.2 ⟨b, bs, steady.reordered value first, ih values, eq⟩

theorem list_eq_ok_iff {item : Reader α} {depth : Nat} {t : Tree} {as : List α} :
    list item depth t = .ok as ↔
      ∃ d ts, depth = d + 1 ∧ t = .array ts .closed ∧ ts.mapM (item d) = .ok as := by
  constructor
  · intro h
    cases t with
    | array ts ending =>
      cases depth with
      | zero => cases h
      | succ depth =>
        obtain ⟨as', values, h⟩ := bind_eq_ok_iff.1 h
        obtain ⟨u, ends, h⟩ := bind_eq_ok_iff.1 h
        cases h
        cases Ending.check_eq_ok_iff.1 ends
        exact ⟨depth, ts, rfl, rfl, values⟩
    | _ => cases h
  · rintro ⟨d, ts, rfl, rfl, values⟩
    rw [list, values]
    rfl

theorem steady_list {item : Reader α} (steady : ∀ depth, Steady (item depth)) (depth : Nat) :
    Steady (list item depth) where
  whole honest h := by
    obtain ⟨d, ts, rfl, rfl, values⟩ := list_eq_ok_iff.1 h
    exact Tree.whole_array_iff.2 ⟨whole_of_mapM (steady d) (fun t ht => honest.item ht) values, rfl⟩
  reordered h same := by
    obtain ⟨d, ts, rfl, rfl, values⟩ := list_eq_ok_iff.1 h
    cases same with
    | array each => exact list_eq_ok_iff.2 ⟨d, _, rfl, rfl, mapM_reordered (steady d) values each⟩

/-! ## Records -/

variable {σ : Type}

/-- A field that is read steadily, whatever has been read so far. -/
def Field.Steady (field : Field σ) : Prop :=
  ∀ depth s, Json.Steady fun t => field.read depth t s

/-- Two fields may be read in either order. -/
def Field.Commutes (f g : Field σ) : Prop :=
  ∀ depth t u s s', (f.read depth t s >>= g.read depth u) = .ok s' ↔
    (g.read depth u s >>= f.read depth t) = .ok s'

theorem Field.steady_of {name : String} {value : Reader α} {set : α → σ → σ}
    (steady : ∀ depth, Json.Steady (value depth)) : (Field.of name value set).Steady :=
  fun depth s => (steady depth).map (set · s)

/-- Fields that set different parts. -/
theorem Field.commutes_of {β : Type} {name name' : String} {value : Reader α} {value' : Reader β}
    {set : α → σ → σ} {set' : β → σ → σ} (apart : ∀ a b s, set a (set' b s) = set' b (set a s)) :
    (Field.of name value set).Commutes (Field.of name' value' set') := by
  intro depth t u s s'
  cases ht : value depth t <;> cases hu : value' depth u <;>
    simp [Field.of, ht, hu, bind, Except.bind, Except.map, apart]

/-- Fields that are read steadily, any two of different names in either order. -/
structure SteadyFields (fields : List (Field σ)) : Prop where
  steady : ∀ f ∈ fields, f.Steady
  commute : ∀ f ∈ fields, ∀ g ∈ fields, f.name ≠ g.name → f.Commutes g

theorem SteadyFields.nil : SteadyFields ([] : List (Field σ)) := ⟨by simp, by simp⟩

theorem SteadyFields.cons {field : Field σ} {fields : List (Field σ)} (steady : field.Steady)
    (commutes : ∀ g ∈ fields, field.Commutes g) (more : SteadyFields fields) :
    SteadyFields (field :: fields) where
  steady := List.forall_mem_cons.2 ⟨steady, more.steady⟩
  commute := by
    intro f memf g memg ne
    rcases List.mem_cons.1 memf with rfl | hf <;> rcases List.mem_cons.1 memg with rfl | hg
    · exact absurd rfl ne
    · exact commutes g hg
    · exact fun depth t u s s' => (commutes f hf depth u t s s').symm
    · exact more.commute f hf g hg ne

variable {fields : List (Field σ)} {depth : Nat}

theorem mem_of_find? {fields : List (Field σ)} {field : Field σ} {name : String}
    (h : fields.find? (·.name == name) = some field) : field ∈ fields ∧ field.name = name :=
  ⟨List.mem_of_find?_eq_some h, by simpa using List.find?_some h⟩

/-- Reading one entry takes what has been seen and read so far to `seen'` and `s'`. -/
inductive ReadsEntry (fields : List (Field σ)) (depth : Nat) (key : Quoted) (t : Tree)
    (seen : List String) (s : σ) : List String → σ → Prop
  /-- An entry with an unknown key is passed over. -/
  | unknown {name : String} (spells : key.decode = .ok name)
      (unknown : fields.find? (·.name == name) = none) (whole : t.Whole) :
      ReadsEntry fields depth key t seen s seen s
  | known {name : String} {field : Field σ} {s' : σ} (spells : key.decode = .ok name)
      (known : fields.find? (·.name == name) = some field) (fresh : name ∉ seen)
      (read : field.read depth t s = .ok s') :
      ReadsEntry fields depth key t seen s (name :: seen) s'

theorem entries_cons_eq_ok_iff {seen : List String} {s s' : σ} {key : Quoted} {t : Tree}
    {rest : List (Quoted × Tree)} :
    entries fields depth seen s ((key, t) :: rest) = .ok s' ↔
      ∃ seen₁ s₁, ReadsEntry fields depth key t seen s seen₁ s₁ ∧
        entries fields depth seen₁ s₁ rest = .ok s' := by
  rw [entries]
  constructor
  · intro h
    obtain ⟨name, spells, h⟩ := bind_eq_ok_iff.1 h
    split at h
    · next unknown =>
      obtain ⟨_, skips, h⟩ := bind_eq_ok_iff.1 h
      exact ⟨_, _, .unknown spells unknown (Tree.skip_eq_ok_iff.1 skips), h⟩
    · next field known =>
      split at h
      · cases h
      · next fresh =>
        obtain ⟨s₁, read, h⟩ := bind_eq_ok_iff.1 h
        exact ⟨_, _, .known spells known fresh read, h⟩
  · rintro ⟨seen₁, s₁, step, more⟩
    cases step with
    | unknown spells unknown whole =>
      have skips : t.skip = .ok () := Tree.skip_eq_ok_iff.2 whole
      simp only [spells, unknown, skips, bind, Except.bind]
      exact more
    | known spells known fresh read =>
      simp only [spells, known, if_neg fresh, read, bind, Except.bind]
      exact more

theorem ReadsEntry.reordered {key : Quoted} {t t' : Tree} {seen seen' : List String} {s s' : σ}
    (steady : SteadyFields fields) (h : ReadsEntry fields depth key t seen s seen' s')
    (same : Reordered t t') : ReadsEntry fields depth key t' seen s seen' s' := by
  cases h with
  | unknown spells unknown whole => exact .unknown spells unknown (same.whole _ whole)
  | known spells known fresh read =>
    have field := steady.steady _ (mem_of_find? known).1 depth s
    exact .known spells known fresh (field.reordered read same)

/-- It matters which names have been seen, not in which order. -/
theorem entries_seen_congr {seen seen' : List String} (same : ∀ name, name ∈ seen ↔ name ∈ seen')
    (s : σ) (es : List (Quoted × Tree)) :
    entries fields depth seen s es = entries fields depth seen' s es := by
  induction es generalizing seen seen' s with
  | nil => rfl
  | cons e es ih =>
    obtain ⟨key, t⟩ := e
    rw [entries, entries]
    cases key.decode with
    | error => rfl
    | ok name =>
      have longer : ∀ n, n ∈ name :: seen ↔ n ∈ name :: seen' := fun n => by simp [same]
      simp only [bind, Except.bind, same, ih same]
      cases fields.find? (·.name == name) with
      | none => rfl
      | some field =>
        by_cases h : name ∈ seen'
        · simp only [if_pos h]
          rfl
        · simp only [if_neg h]
          cases field.read depth t s with
          | error => rfl
          | ok s' => exact ih longer s'

/-- Whatever has been read before, the second entries are read to the same record as the first. -/
def Follows (fields : List (Field σ)) (depth : Nat) (es es' : List (Quoted × Tree)) : Prop :=
  ∀ seen s s', entries fields depth seen s es = .ok s' → entries fields depth seen s es' = .ok s'

theorem follows_cons {key : Quoted} {t t' : Tree} {es es' : List (Quoted × Tree)}
    (first : ∀ {seen s seen' s'}, ReadsEntry fields depth key t seen s seen' s' →
      ReadsEntry fields depth key t' seen s seen' s')
    (more : Follows fields depth es es') :
    Follows fields depth ((key, t) :: es) ((key, t') :: es') := by
  intro seen s s' h
  obtain ⟨seen₁, s₁, step, rest⟩ := entries_cons_eq_ok_iff.1 h
  exact entries_cons_eq_ok_iff.2 ⟨seen₁, s₁, first step, more _ _ _ rest⟩

theorem follows_of_forall₂ (steady : SteadyFields fields) {es es' : List (Quoted × Tree)}
    (each : List.Forall₂ EntryReordered es es') : Follows fields depth es es' := by
  induction each with
  | nil => exact fun _ _ _ h => h
  | cons first _ ih =>
    obtain ⟨key, same⟩ := first
    exact follows_cons (fun step => step.reordered steady same) ih

/-- Two neighbours may be read in either order: a name that is seen in one is refused in the
other. -/
theorem follows_swap (steady : SteadyFields fields) (d e : Quoted × Tree)
    (es : List (Quoted × Tree)) : Follows fields depth (d :: e :: es) (e :: d :: es) := by
  intro seen s s' h
  obtain ⟨seen₁, s₁, first, h⟩ := entries_cons_eq_ok_iff.1 h
  obtain ⟨seen₂, s₂, second, rest⟩ := entries_cons_eq_ok_iff.1 h
  suffices swapped : ∃ seen₁ s₁, ReadsEntry fields depth e.1 e.2 seen s seen₁ s₁ ∧
      ∃ seen₂ s₂, ReadsEntry fields depth d.1 d.2 seen₁ s₁ seen₂ s₂ ∧
        entries fields depth seen₂ s₂ es = .ok s' by
    obtain ⟨_, _, first, _, _, second, rest⟩ := swapped
    exact entries_cons_eq_ok_iff.2 ⟨_, _, first, entries_cons_eq_ok_iff.2 ⟨_, _, second, rest⟩⟩
  cases first with
  | unknown spells unknown whole =>
    cases second with
    | unknown spells' unknown' whole' =>
      exact ⟨_, _, .unknown spells' unknown' whole', _, _, .unknown spells unknown whole, rest⟩
    | known spells' known' fresh' read' =>
      exact ⟨_, _, .known spells' known' fresh' read', _, _, .unknown spells unknown whole, rest⟩
  | @known name field _ spells known fresh read =>
    cases second with
    | unknown spells' unknown' whole' =>
      exact ⟨_, _, .unknown spells' unknown' whole', _, _, .known spells known fresh read, rest⟩
    | @known name' field' _ spells' known' fresh' read' =>
      obtain ⟨ne, fresh'⟩ := not_or.1 (mt List.mem_cons.2 fresh')
      obtain ⟨mem, called⟩ := mem_of_find? known
      obtain ⟨mem', called'⟩ := mem_of_find? known'
      have differ : field.name ≠ field'.name := by
        rw [called, called']
        exact Ne.symm ne
      have both : (field.read depth d.2 s >>= field'.read depth e.2) = .ok s₂ :=
        bind_eq_ok_iff.2 ⟨s₁, read, read'⟩
      rw [steady.commute field mem field' mem' differ] at both
      obtain ⟨s₁', first', second'⟩ := bind_eq_ok_iff.1 both
      have fresh₂ : name ∉ name' :: seen := mt List.mem_cons.1 (not_or.2 ⟨Ne.symm ne, fresh⟩)
      refine ⟨_, _, .known spells' known' fresh' first', _, _,
        .known spells known fresh₂ second', ?_⟩
      have turned : ∀ n, n ∈ name :: name' :: seen ↔ n ∈ name' :: name :: seen := fun n => by
        simp [or_left_comm]
      rw [entries_seen_congr turned]
      exact rest

theorem follows_of_interchanged (steady : SteadyFields fields) {es es' : List (Quoted × Tree)}
    (h : Interchanged es es') : Follows fields depth es es' := by
  induction h with
  | refl => exact fun _ _ _ h => h
  | cons e _ ih => exact follows_cons id ih
  | swap _ es => exact follows_swap steady _ _ es
  | trans _ _ ih₁ ih₂ => exact fun seen s s' h => ih₂ seen s s' (ih₁ seen s s' h)

theorem whole_of_entries (steady : SteadyFields fields) {seen : List String} {s s' : σ}
    {es : List (Quoted × Tree)} (honest : ∀ e ∈ es, e.2.Honest)
    (h : entries fields depth seen s es = .ok s') :
    ∀ e ∈ es, e.1.skipFault? = none ∧ e.2.Whole := by
  induction es generalizing seen s with
  | nil => simp
  | cons e es ih =>
    obtain ⟨seen₁, s₁, step, rest⟩ := entries_cons_eq_ok_iff.1 h
    obtain ⟨honest₁, honest₂⟩ := List.forall_mem_cons.1 honest
    refine List.forall_mem_cons.2 ⟨?_, ih honest₂ rest⟩
    cases step with
    | unknown spells _ whole => exact ⟨Quoted.skipFault?_of_decode spells, whole⟩
    | known spells known _ read =>
      have field := steady.steady _ (mem_of_find? known).1 depth s
      exact ⟨Quoted.skipFault?_of_decode spells, field.whole honest₁ read⟩

/-! ### Records as arrays -/

theorem whole_of_elements {s s' : σ} {ending : Ending} {fields : List (Field σ)} {ts : List Tree}
    (steady : ∀ f ∈ fields, f.Steady) (honest : ∀ t ∈ ts, t.Honest)
    (h : elements depth s ending fields ts = .ok s') : (∀ t ∈ ts, t.Whole) ∧ ending = .closed := by
  induction ts generalizing fields s with
  | nil =>
    have ends : (ending.check).map (fun _ => s) = .ok s' := by
      cases fields <;> exact h
    obtain ⟨_, ends, -⟩ := map_eq_ok_iff.1 ends
    exact ⟨by simp, Ending.check_eq_ok_iff.1 ends⟩
  | cons t ts ih =>
    cases fields with
    | nil => cases h
    | cons field fields =>
      obtain ⟨s₁, first, more⟩ := bind_eq_ok_iff.1 h
      obtain ⟨steady₁, steady₂⟩ := List.forall_mem_cons.1 steady
      obtain ⟨honest₁, honest₂⟩ := List.forall_mem_cons.1 honest
      obtain ⟨wholes, closed⟩ := ih steady₂ honest₂ more
      exact ⟨List.forall_mem_cons.2 ⟨(steady₁ depth s).whole honest₁ first, wholes⟩, closed⟩

theorem elements_reordered {s s' : σ} {ending : Ending} {fields : List (Field σ)}
    {ts ts' : List Tree} (steady : ∀ f ∈ fields, f.Steady)
    (h : elements depth s ending fields ts = .ok s') (each : List.Forall₂ Reordered ts ts') :
    elements depth s ending fields ts' = .ok s' := by
  induction each generalizing fields s with
  | nil => exact h
  | cons same _ ih =>
    cases fields with
    | nil => cases h
    | cons field fields =>
      obtain ⟨s₁, first, more⟩ := bind_eq_ok_iff.1 h
      obtain ⟨steady₁, steady₂⟩ := List.forall_mem_cons.1 steady
      exact bind_eq_ok_iff.2 ⟨s₁, (steady₁ depth s).reordered first same, ih steady₂ more⟩

/-! ### Records -/

theorem record_object_eq_ok_iff {s s' : σ} {es : List (Quoted × Tree)} {ending : Ending} :
    record fields s (depth + 1) (.object es ending) = .ok s' ↔
      entries fields depth [] s es = .ok s' ∧ ending = .closed := by
  constructor
  · intro h
    obtain ⟨s₁, read, h⟩ := bind_eq_ok_iff.1 h
    obtain ⟨u, ends, h⟩ := bind_eq_ok_iff.1 h
    cases h
    exact ⟨read, Ending.check_eq_ok_iff.1 ends⟩
  · rintro ⟨read, rfl⟩
    exact bind_eq_ok_iff.2 ⟨s', read, rfl⟩

theorem steady_record (steady : SteadyFields fields) (s : σ) (depth : Nat) :
    Json.Steady (record fields s depth) where
  whole := by
    intro t s' honest h
    cases depth with
    | zero => cases t <;> cases h
    | succ depth =>
      cases t with
      | array ts ending =>
        exact Tree.whole_array_iff.2
          (whole_of_elements steady.steady (fun t ht => honest.item ht) h)
      | object es ending =>
        obtain ⟨read, closed⟩ := record_object_eq_ok_iff.1 h
        exact Tree.whole_object_iff.2
          ⟨whole_of_entries steady (fun e he => (honest.entry he).2) read, closed⟩
      | _ => cases h
  reordered := by
    intro t t' s' h same
    cases depth with
    | zero => cases t <;> cases h
    | succ depth =>
      cases same with
      | array each => exact elements_reordered steady.steady h each
      | object each shuffled =>
        obtain ⟨read, -⟩ := record_object_eq_ok_iff.1 h
        have values := follows_of_forall₂ steady each _ _ _ read
        have order := follows_of_interchanged steady shuffled.interchanged _ _ _ values
        exact record_object_eq_ok_iff.2 ⟨order, rfl⟩
      | _ => cases h

/-! ## Tagged records -/

/-- Whether the key is that of the tag. -/
def isTag (key : Quoted) : Bool :=
  match key.decode with
  | .ok name => name = "kind"
  | .error _ => false

variable {κ : Type} {tag : Tree → Except Fault κ}

/-- The next entry is the tag, if there has been none, or one that is read as a whole. -/
theorem tagEntries_cons_eq_ok_iff {found r : Option κ} {key : Quoted} {t : Tree}
    {es others : List (Quoted × Tree)} :
    tagEntries tag depth found ((key, t) :: es) = .ok (r, others) ↔
      key.strictFault? = none ∧
        (isTag key = true ∧ found = none ∧
            (∃ k, tag t = .ok k ∧ tagEntries tag depth (some k) es = .ok (r, others)) ∨
          isTag key = false ∧ t.strictFault? depth = none ∧
            ∃ rest, others = (key, t) :: rest ∧ tagEntries tag depth found es = .ok (r, rest)) := by
  rw [tagEntries]
  cases spells : key.decode with
  | error fault => simp [Quoted.strictFault?, spells, bind, Except.bind]
  | ok name =>
    have strict : key.strictFault? = none := by simp [Quoted.strictFault?, spells]
    by_cases kind : name = "kind"
    · have here : isTag key = true := by simp [isTag, spells, kind]
      simp only [bind, Except.bind, if_pos kind]
      cases found with
      | some k => simp [here]
      | none => cases value : tag t <;> simp [here, strict]
    · have here : isTag key = false := by simp [isTag, spells, kind]
      simp only [bind, Except.bind, if_neg kind, Tree.check]
      cases whole : t.strictFault? depth with
      | some fault => simp [here]
      | none =>
        cases rest : tagEntries tag depth found es <;> simp [here, strict, pure, Except.pure]
        grind

/-- The entries are split at the tag, which is read where it stands; every other entry is read as a
whole. -/
theorem tagEntries_eq_ok_iff {found r : Option κ} {es others : List (Quoted × Tree)} :
    tagEntries tag depth found es = .ok (r, others) ↔
      (∀ e ∈ es, e.1.strictFault? = none) ∧ others = es.filter (!isTag ·.1) ∧
      (∀ e ∈ others, e.2.strictFault? depth = none) ∧
      (es.filter (isTag ·.1) = [] ∧ r = found ∨
        found = none ∧ ∃ e k, es.filter (isTag ·.1) = [e] ∧ tag e.2 = .ok k ∧ r = some k) := by
  induction es generalizing found others with
  | nil =>
    rw [tagEntries]
    constructor
    · rintro ⟨⟩
      simp
    · rintro ⟨-, rfl, -, ⟨-, rfl⟩ | ⟨-, e, k, here, -⟩⟩
      · rfl
      · cases here
  | cons e es ih =>
    obtain ⟨key, t⟩ := e
    rw [tagEntries_cons_eq_ok_iff]
    simp only [ih]
    cases here : isTag key with
    | true =>
      rw [List.forall_mem_cons, List.filter_cons_of_neg (by simp [here]),
        List.filter_cons_of_pos (by simp [here])]
      generalize es.filter (isTag ·.1) = tags
      constructor
      · rintro ⟨strict, ⟨-, rfl, k, value, keys, rfl, more, ⟨rfl, rfl⟩ | ⟨⟨⟩, -⟩⟩ | ⟨⟨⟩, -⟩⟩
        exact ⟨⟨strict, keys⟩, rfl, more, .inr ⟨rfl, _, k, rfl, value, rfl⟩⟩
      · rintro ⟨⟨strict, keys⟩, rfl, more, ⟨⟨⟩, -⟩ | ⟨rfl, _, k, ⟨⟩, value, rfl⟩⟩
        exact ⟨strict, .inl ⟨rfl, rfl, k, value, keys, rfl, more, .inl ⟨rfl, rfl⟩⟩⟩
    | false =>
      rw [List.forall_mem_cons, List.filter_cons_of_pos (by simp [here]),
        List.filter_cons_of_neg (by simp [here])]
      constructor
      · rintro ⟨strict, ⟨⟨⟩, -⟩ | ⟨-, whole, _, rfl, keys, rfl, more, tags⟩⟩
        exact ⟨⟨strict, keys⟩, rfl, List.forall_mem_cons.2 ⟨whole, more⟩, tags⟩
      · rintro ⟨⟨strict, keys⟩, rfl, more, tags⟩
        obtain ⟨whole, more⟩ := List.forall_mem_cons.1 more
        exact ⟨strict, .inr ⟨rfl, whole, _, rfl, keys, rfl, more, tags⟩⟩

/-- The entries have one tag, which is `k`, and everything else can be read as a whole. -/
structure HasTag (tag : Tree → Except Fault κ) (depth : Nat) (es : List (Quoted × Tree)) (k : κ) :
    Prop where
  keys : ∀ e ∈ es, e.1.strictFault? = none
  single : ∃ e, es.filter (isTag ·.1) = [e] ∧ tag e.2 = .ok k
  others : ∀ e ∈ es.filter (!isTag ·.1), e.2.strictFault? depth = none

theorem tagged_object_eq_ok_iff {es : List (Quoted × Tree)} {ending : Ending} {k : κ}
    {body : Tree} :
    tagged tag (depth + 1) (.object es ending) = .ok (k, body) ↔
      HasTag tag depth es k ∧ ending = .closed ∧
        body = .object (es.filter (!isTag ·.1)) .closed := by
  constructor
  · intro h
    obtain ⟨⟨found, others⟩, split, h⟩ := bind_eq_ok_iff.1 h
    obtain ⟨u, ends, h⟩ := bind_eq_ok_iff.1 h
    obtain ⟨k', some_k, h⟩ := bind_eq_ok_iff.1 h
    cases h
    obtain ⟨keys, rfl, others, ⟨-, rfl⟩ | ⟨-, e, k', single, value, rfl⟩⟩ :=
      tagEntries_eq_ok_iff.1 split
    · cases some_k
    · cases some_k
      exact ⟨⟨keys, ⟨e, single, value⟩, others⟩, Ending.check_eq_ok_iff.1 ends, rfl⟩
  · rintro ⟨⟨keys, ⟨e, single, value⟩, others⟩, rfl, rfl⟩
    have split := tagEntries_eq_ok_iff.2
      ⟨keys, rfl, others, .inr ⟨rfl, e, k, single, value, rfl⟩⟩
    exact bind_eq_ok_iff.2 ⟨_, split, rfl⟩

theorem tagged_array_eq_ok_iff {ts : List Tree} {ending : Ending} {k : κ} {body : Tree} :
    tagged tag (depth + 1) (.array ts ending) = .ok (k, body) ↔
      ∃ t rest, ts = t :: rest ∧ tag t = .ok k ∧ (∀ u ∈ rest, u.strictFault? depth = none) ∧
        ending = .closed ∧ body = .array rest .closed := by
  cases ts with
  | nil =>
    constructor
    · intro h
      obtain ⟨u, -, h⟩ := bind_eq_ok_iff.1 h
      cases h
    · rintro ⟨t, rest, ⟨⟩, -⟩
  | cons t rest =>
    constructor
    · intro h
      obtain ⟨k', value, h⟩ := bind_eq_ok_iff.1 h
      cases strict : Tree.strictItems? depth rest with
      | some fault =>
        rw [strict] at h
        cases h
      | none =>
        rw [strict] at h
        obtain ⟨u, ends, h⟩ := bind_eq_ok_iff.1 h
        cases h
        exact ⟨t, rest, rfl, value, Tree.strictItems?_eq_none_iff.1 strict,
          Ending.check_eq_ok_iff.1 ends, rfl⟩
    · rintro ⟨_, _, ⟨⟩, value, strict, rfl, rfl⟩
      refine bind_eq_ok_iff.2 ⟨k, value, ?_⟩
      rw [Tree.strictItems?_eq_none_iff.2 strict]
      rfl

theorem whole_of_tagged (steady : Json.Steady tag) {t : Tree} (honest : t.Honest)
    {p : κ × Tree} (h : tagged tag depth t = .ok p) : t.Whole := by
  obtain ⟨k, body⟩ := p
  cases depth with
  | zero => cases t <;> cases h
  | succ depth =>
    cases t with
    | object es ending =>
      obtain ⟨⟨keys, ⟨e, single, value⟩, others⟩, closed, -⟩ := tagged_object_eq_ok_iff.1 h
      refine Tree.whole_object_iff.2 ⟨fun d mem => ?_, closed⟩
      refine ⟨Quoted.skipFault?_of_strictFault? (keys d mem), ?_⟩
      by_cases here : isTag d.1 = true
      · have tagged : d ∈ es.filter (isTag ·.1) := List.mem_filter.2 ⟨mem, here⟩
        rw [single, List.mem_singleton] at tagged
        subst tagged
        exact steady.whole (honest.entry mem).2 value
      · exact Tree.whole_of_strictFault? (others d (List.mem_filter.2 ⟨mem, by simpa using here⟩))
    | array ts ending =>
      obtain ⟨t, rest, rfl, value, strict, closed, -⟩ := tagged_array_eq_ok_iff.1 h
      refine Tree.whole_array_iff.2 ⟨List.forall_mem_cons.2 ⟨?_, ?_⟩, closed⟩
      · exact steady.whole (honest.item List.mem_cons_self) value
      · exact fun u hu => Tree.whole_of_strictFault? (strict u hu)
    | _ => cases h

theorem tagged_reordered (steady : Json.Steady tag) {t t' : Tree} {k : κ} {body : Tree}
    (h : tagged tag depth t = .ok (k, body)) (same : Reordered t t') :
    ∃ body', tagged tag depth t' = .ok (k, body') ∧ Reordered body body' := by
  cases depth with
  | zero => cases t <;> cases h
  | succ depth =>
    cases same with
    | @object es mid es' each shuffled =>
      obtain ⟨⟨keys, ⟨e, single, value⟩, others⟩, -, rfl⟩ := tagged_object_eq_ok_iff.1 h
      have chosen (p : Quoted → Bool) :
          List.Forall₂ EntryReordered (es.filter (p ·.1)) (mid.filter (p ·.1)) :=
        List.rel_filter (by rintro _ _ ⟨key, _⟩; rfl) each
      have others_eq : Reordered (.object (es.filter (!isTag ·.1)) .closed)
          (.object (es'.filter (!isTag ·.1)) .closed) :=
        .object (chosen (!isTag ·)) (shuffled.filter (!isTag ·))
      refine ⟨_, tagged_object_eq_ok_iff.2 ⟨⟨fun e' mem => ?_, ?_, fun e' mem => ?_⟩, rfl, rfl⟩,
        others_eq⟩
      · obtain ⟨e, he, key, -⟩ := Reordered.exists_entry each shuffled mem
        exact key ▸ keys e he
      · have tags := chosen isTag
        rw [single] at tags
        obtain ⟨e', -, ⟨key, same⟩, ⟨⟩, mid_eq⟩ := List.forall₂_cons_left_iff.1 tags
        have tags' := shuffled.filter isTag
        rw [mid_eq] at tags'
        exact ⟨_, tags'.eq_singleton, steady.reordered value same⟩
      · obtain ⟨e, he, -, same⟩ :=
          Reordered.exists_entry (chosen (!isTag ·)) (shuffled.filter (!isTag ·)) mem
        exact same.strictFault?_eq_none (others e he)
    | array each =>
      obtain ⟨t, rest, rfl, value, strict, -, rfl⟩ := tagged_array_eq_ok_iff.1 h
      obtain ⟨t', rest', same, more, rfl⟩ := List.forall₂_cons_left_iff.1 each
      refine ⟨_, tagged_array_eq_ok_iff.2
        ⟨t', rest', rfl, steady.reordered value same, fun u' mem => ?_, rfl, rfl⟩, .array more⟩
      obtain ⟨u, hu, same⟩ := Reordered.exists_item more mem
      exact same.strictFault?_eq_none (strict u hu)
    | _ => cases h

/-- A reader that looks at the tag first and then reads the content, which has been read as a whole
before. -/
theorem steady_tagged (steady : Json.Steady tag) {inner : κ × Tree → Except Fault α}
    (content : ∀ k, OrderFree fun body => inner (k, body)) (depth : Nat) :
    Json.Steady fun t => tagged tag depth t >>= inner where
  whole honest h := by
    obtain ⟨p, found, -⟩ := bind_eq_ok_iff.1 h
    exact whole_of_tagged steady honest found
  reordered h same := by
    obtain ⟨⟨k, body⟩, found, read⟩ := bind_eq_ok_iff.1 h
    obtain ⟨body', found', same'⟩ := tagged_reordered steady found same
    exact bind_eq_ok_iff.2 ⟨(k, body'), found', content k read same'⟩

/-! ## Whole texts -/

/-- A text that a steady reader accepts spells a tree. -/
theorem exists_spelled_of_accepted {value : Reader α} (steady : Json.Steady (value maxDepth))
    {text : String} {a : α} (accepted : document value text = .ok a) :
    ∃ t : Tree, t.SpelledBy text :=
  let ⟨t, spelled, _⟩ := exists_spelled_of_document (fun _ => steady.whole) accepted
  ⟨t, spelled⟩

/-- A text that a steady reader accepts may be rewritten. -/
theorem document_rewritten {value : Reader α} (steady : Json.Steady (value maxDepth))
    {text text' : String} {a : α} (accepted : document value text = .ok a)
    (rewritten : Rewritten text text') : document value text' = .ok a := by
  obtain ⟨t, t', spelled, same, spelled'⟩ := rewritten
  rw [document_of_spelled spelled] at accepted
  rw [document_of_spelled spelled']
  exact steady.reordered accepted same

end Reader

end HierarchyAccessors.Json
