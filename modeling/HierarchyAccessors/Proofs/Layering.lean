import HierarchyAccessors.Configuration.Layers
import HierarchyAccessors.Json.Fault
import HierarchyAccessors.Proofs.CacheKeys

/-!
# Which layer supplies a setting

What a layer supplies under a key is said for each layer on its own: the command line what was given
on it (`Arguments.Gives`), the environment what the last variable about the key says
(`Environment.Gives`), the file what stands last under the key (`Layer.Gives`). A key then has the
value of the highest layer that supplies it, and of the defaults if none does (`Supplied`).

**Theorem (`load_by_layers`).** The file that is named is read, and is an error if it cannot be
parsed, whatever else is given. Otherwise the configuration is the one that has, under each key, the
value that is supplied; there is none just if one of these values is of the wrong kind.
-/

namespace HierarchyAccessors

open Disk (bytesOf)
open Json (bind_eq_ok_iff)

/-! ## Keys -/

/-- The keys of a configuration. -/
inductive Key
  | cache
  | dryRun
  | outDir
  | snapshot
  | strict
deriving DecidableEq

namespace Key

/-- The name under which a layer supplies the key. -/
def name : Key → String
  | cache => "cache"
  | dryRun => "dry_run"
  | outDir => "out_dir"
  | snapshot => "snapshot"
  | strict => "strict"

/-- The environment variable of the key. -/
def variableName : Key → String
  | cache => "ACCESSORGEN_CACHE"
  | dryRun => "ACCESSORGEN_DRY_RUN"
  | outDir => "ACCESSORGEN_OUT_DIR"
  | snapshot => "ACCESSORGEN_SNAPSHOT"
  | strict => "ACCESSORGEN_STRICT"

/-- The setting is of the right kind for the key. -/
def Accepts : Key → Setting → Prop
  | outDir, .text _ | snapshot, .text _ => True
  | cache, .switch _ | dryRun, .switch _ | strict, .switch _ => True
  | _, _ => False

end Key

/-- The value of a configuration under a key. Only a snapshot may be missing. -/
def Config.value? (config : Config) : Key → Option Setting
  | .cache => some (.switch config.cache)
  | .dryRun => some (.switch config.dryRun)
  | .outDir => some (.text config.outDir)
  | .snapshot => config.snapshot.map .text
  | .strict => some (.switch config.strict)

theorem Config.accepts_of_value? {config : Config} {key : Key} {v : Setting}
    (h : config.value? key = some v) : key.Accepts v := by
  cases key with
  | snapshot =>
    obtain ⟨path, -, rfl⟩ := Option.map_eq_some_iff.1 h
    trivial
  | _ =>
    cases h
    trivial

/-! ## What each layer supplies -/

/-- What was given on the command line; a flag that is not raised gives nothing. -/
inductive Arguments.Gives (args : Arguments) : Key → Setting → Prop
  | cache (h : args.cache = true) : Gives args .cache (.switch true)
  | dryRun (h : args.dryRun = true) : Gives args .dryRun (.switch true)
  | outDir {path : String} (h : args.outDir = some path) : Gives args .outDir (.text path)
  | snapshot {path : String} (h : args.snapshot = some path) : Gives args .snapshot (.text path)
  | strict (h : args.strict = true) : Gives args .strict (.switch true)

/-- What an environment variable says about a key: what its text spells, or a table if its name goes
on behind the key. -/
inductive VariableGives : String × String → Key → Setting → Prop
  | whole {name text : String} {key : Key} (h : Layer.keyParts? name = some [key.name]) :
    VariableGives (name, text) key (.ofText text)
  | part {name text inner : String} {more : List String} {key : Key}
    (h : Layer.keyParts? name = some (key.name :: inner :: more)) :
    VariableGives (name, text) key .other

/-- What the last variable about the key says. -/
def Environment.Gives (env : Environment) (key : Key) (v : Setting) : Prop :=
  ∃ before last later, env.entries = before ++ last :: later ∧ VariableGives last key v ∧
    ∀ next ∈ later, ∀ v', ¬VariableGives next key v'

/-- What stands last under the key. -/
def Layer.Gives (layer : Layer) (key : Key) (v : Setting) : Prop :=
  ∃ before later, layer = before ++ (key.name, v) :: later ∧ ∀ e ∈ later, e.1 ≠ key.name

/-- The value of a key: what the highest layer supplies that has the key, or the default. -/
inductive Supplied (args : Arguments) (env : Environment) (file : Layer) (key : Key) :
    Option Setting → Prop
  | commandLine {v : Setting} (h : args.Gives key v) : Supplied args env file key (some v)
  | environment {v : Setting} (above : ∀ v, ¬args.Gives key v) (h : env.Gives key v) :
    Supplied args env file key (some v)
  | file {v : Setting} (above : ∀ v, ¬args.Gives key v) (above' : ∀ v, ¬env.Gives key v)
    (h : file.Gives key v) : Supplied args env file key (some v)
  | standard (above : ∀ v, ¬args.Gives key v) (above' : ∀ v, ¬env.Gives key v)
    (above'' : ∀ v, ¬file.Gives key v) :
    Supplied args env file key (({} : Config).value? key)

/-! ### As the layers are looked up -/

/-- Seen from the end, the last item counts that has a value. -/
theorem findSome?_reverse_eq_some_iff {α β : Type} {value : α → Option β} {as : List α} {b : β} :
    as.reverse.findSome? value = some b ↔
      ∃ before a later, as = before ++ a :: later ∧ value a = some b ∧
        ∀ next ∈ later, value next = none := by
  rw [List.findSome?_eq_some_iff]
  constructor
  · rintro ⟨later, a, before, split, found, others⟩
    refine ⟨before.reverse, a, later.reverse, ?_, found, by simpa using others⟩
    rw [← List.reverse_reverse as, split]
    simp
  · rintro ⟨before, a, later, rfl, found, others⟩
    exact ⟨later.reverse, a, before.reverse, by simp, found, by simpa using others⟩

namespace Layer

theorem get?_append (layer more : Layer) (name : String) :
    get? (layer ++ more) name = (get? more name).or (get? layer name) := by
  rw [get?, List.reverse_append, List.lookup_append]
  rfl

theorem get?_singleton (name : String) (v : Setting) (name' : String) :
    get? [(name, v)] name' = if name' = name then some v else none := by
  simp only [get?, List.reverse_singleton, List.lookup_cons, List.lookup_nil]
  by_cases same : name' = name
  · rw [if_pos same, beq_iff_eq.2 same]
  · rw [if_neg same, beq_eq_false_iff_ne.2 same]

theorem get?_eq_some_iff {layer : Layer} {key : Key} {v : Setting} :
    get? layer key.name = some v ↔ layer.Gives key v := by
  rw [get?, List.lookup_eq_findSome?, findSome?_reverse_eq_some_iff, Gives]
  constructor
  · rintro ⟨before, ⟨name, v'⟩, later, rfl, found, others⟩
    simp only [Option.ite_none_right_eq_some, beq_iff_eq, Option.some_inj] at found
    obtain ⟨rfl, rfl⟩ := found
    exact ⟨before, later, rfl, fun e mem same => by simpa [same] using others e mem⟩
  · rintro ⟨before, later, rfl, others⟩
    refine ⟨before, _, later, rfl, by simp, fun e mem => ?_⟩
    simp [(others e mem).symm]

/-- Of tables one after the other, the last that has the key is looked up. -/
theorem get?_flatMap {α : Type} (table : α → Layer) (as : List α) (name : String) :
    get? (as.flatMap table) name = as.reverse.findSome? fun a => get? (table a) name := by
  induction as with
  | nil => rfl
  | cons a as ih =>
    rw [List.flatMap_cons, get?_append, ih, List.reverse_cons, List.findSome?_append,
      List.findSome?_singleton]

theorem get?_ofVariable_eq_some_iff {entry : String × String} {key : Key} {v : Setting} :
    get? (ofVariable entry) key.name = some v ↔ VariableGives entry key v := by
  obtain ⟨name, text⟩ := entry
  constructor
  · intro h
    unfold ofVariable at h
    match parts : keyParts? name with
    | none | some [] => simp [parts, get?] at h
    | some [first] =>
      simp only [parts, get?_singleton, Option.ite_none_right_eq_some, Option.some_inj] at h
      obtain ⟨rfl, rfl⟩ := h
      exact .whole parts
    | some (first :: inner :: more) =>
      simp only [parts, get?_singleton, Option.ite_none_right_eq_some, Option.some_inj] at h
      obtain ⟨rfl, rfl⟩ := h
      exact .part parts
  · rintro (parts | parts) <;> simp [ofVariable, parts, get?_singleton]

theorem get?_ofEnvironment_eq_some_iff {env : Environment} {key : Key} {v : Setting} :
    get? (ofEnvironment env) key.name = some v ↔ env.Gives key v := by
  have silent (entry : String × String) :
      get? (ofVariable entry) key.name = none ↔ ∀ v, ¬VariableGives entry key v := by
    simp only [Option.eq_none_iff_forall_ne_some, ne_eq, get?_ofVariable_eq_some_iff]
  rw [ofEnvironment, get?_flatMap, findSome?_reverse_eq_some_iff]
  simp only [get?_ofVariable_eq_some_iff, silent, Environment.Gives]

theorem toList_environmentPrefix :
    environmentPrefix.toLower.toList =
      ['a', 'c', 'c', 'e', 's', 's', 'o', 'r', 'g', 'e', 'n', '_'] := by
  show (environmentPrefix.map Char.toLower).toList = _
  rw [String.toList_map]
  decide

theorem keyParts?_variableName (key : Key) : keyParts? key.variableName = some [key.name] := by
  rw [keyParts?, toList_environmentPrefix]
  cases key <;> decide

theorem keyParts?_log : keyParts? "ACCESSORGEN_LOG" = none := by
  rw [keyParts?, toList_environmentPrefix]
  decide

theorem keyParts?_configPath : keyParts? "ACCESSORGEN_CONFIG_PATH" = none := by
  rw [keyParts?, toList_environmentPrefix]
  decide

/-- An option that takes a path, or nothing. -/
theorem get?_path (key : String) (value : Option String) (name : String) :
    get? (value.toList.map fun path => (key, .text path)) name =
      if name = key then value.map .text else none := by
  cases value with
  | none => simp [get?]
  | some path => exact get?_singleton key (.text path) name

/-- A flag that is raised, or nothing. -/
theorem get?_switch (key : String) (raised : Bool) (name : String) :
    get? (if raised then [(key, .switch true)] else []) name =
      if name = key then (if raised then some (.switch true) else none) else none := by
  cases raised with
  | false => simp [get?]
  | true => exact get?_singleton key (.switch true) name

theorem get?_ofArguments_eq_some_iff {args : Arguments} {key : Key} {v : Setting} :
    get? (ofArguments args) key.name = some v ↔ args.Gives key v := by
  simp only [ofArguments, get?_append, get?_path, get?_switch]
  constructor
  · intro h
    cases key <;> simp [Key.name] at h
    case cache => exact h.2 ▸ .cache h.1
    case dryRun => exact h.2 ▸ .dryRun h.1
    case strict => exact h.2 ▸ .strict h.1
    all_goals
      obtain ⟨path, given, rfl⟩ := h
      constructor
      exact given
  · rintro (h | h | h | h | h) <;> simp [Key.name, h]

end Layer

/-- The value that the layers have, or the default. -/
theorem supplied_iff {args : Arguments} {env : Environment} {file : Layer} {key : Key}
    {v : Option Setting} :
    Supplied args env file key v ↔
      (Config.winner? [.ofArguments args, .ofEnvironment env, file] key.name).or
        (({} : Config).value? key) = v := by
  have given (v : Setting) : (Layer.ofArguments args).get? key.name = some v ↔ args.Gives key v :=
    Layer.get?_ofArguments_eq_some_iff
  have set (v : Setting) : (Layer.ofEnvironment env).get? key.name = some v ↔ env.Gives key v :=
    Layer.get?_ofEnvironment_eq_some_iff
  have written (v : Setting) : file.get? key.name = some v ↔ file.Gives key v :=
    Layer.get?_eq_some_iff
  simp only [Config.winner?, List.findSome?_cons, List.findSome?_nil]
  generalize (Layer.ofArguments args).get? key.name = first at given
  generalize (Layer.ofEnvironment env).get? key.name = second at set
  generalize file.get? key.name = third at written
  have silent {found : Option Setting} {gives : Setting → Prop}
      (looked : ∀ v, found = some v ↔ gives v) : found = none ↔ ∀ v, ¬gives v := by
    simp only [Option.eq_none_iff_forall_ne_some, ne_eq, looked]
  constructor
  · rintro (h | ⟨above, h⟩ | ⟨above, above', h⟩ | ⟨above, above', above''⟩)
    · rw [(given _).2 h, Option.some_or]
    · rw [(silent given).2 above, (set _).2 h, Option.some_or]
    · rw [(silent given).2 above, (silent set).2 above', (written _).2 h, Option.some_or]
    · rw [(silent given).2 above, (silent set).2 above', (silent written).2 above'',
        Option.none_or]
  · rintro rfl
    cases first with
    | some v => exact .commandLine ((given v).1 rfl)
    | none =>
      have above := (silent given).1 rfl
      cases second with
      | some v => exact .environment above ((set v).1 rfl)
      | none =>
        have above' := (silent set).1 rfl
        cases third with
        | some v => exact .file above above' ((written v).1 rfl)
        | none => exact .standard above above' ((silent written).1 rfl)

/-! ## The configuration file -/

namespace Config

/-- The file that is to be read: the one that the command line names, or else the variable, or else
the default. -/
inductive FileNamed (args : Arguments) (env : Environment) : String → Prop
  | commandLine {path : String} (h : args.configPath = some path) : FileNamed args env path
  | environment {path : String} (above : args.configPath = none)
    (h : env.get? "ACCESSORGEN_CONFIG_PATH" = some path) : FileNamed args env path
  | standard (above : args.configPath = none) (above' : env.get? "ACCESSORGEN_CONFIG_PATH" = none) :
    FileNamed args env "accessorgen.toml"

theorem fileNamed_iff {args : Arguments} {env : Environment} {path : String} :
    FileNamed args env path ↔ filePath args env = path := by
  unfold filePath fileVariable fileName
  constructor
  · rintro (h | ⟨above, h⟩ | ⟨above, above'⟩)
    · simp [h]
    · simp [above, h]
    · simp [above, above']
  · rintro rfl
    cases flag : args.configPath with
    | some path => exact .commandLine flag
    | none =>
      cases var : env.get? "ACCESSORGEN_CONFIG_PATH" with
      | some path => exact .environment flag var
      | none => exact .standard flag var

/-- What the file supplies; a file that is missing supplies nothing. -/
inductive FileSupplies (disk : Disk) (path : String) : Layer → Prop
  | missing (h : fileBytes? disk path = none) : FileSupplies disk path []
  | parsed {bytes : List UInt8} {text : String} {table : Layer}
    (h : fileBytes? disk path = some bytes) (characters : Disk.textOf bytes = .ok text)
    (settings : Toml.settings? text = some table) : FileSupplies disk path table

/-- There is a file, and it is not well formed. -/
def FileMalformed (disk : Disk) (path : String) : Prop :=
  ∃ bytes, fileBytes? disk path = some bytes ∧
    ∀ text, Disk.textOf bytes = .ok text → Toml.settings? text = none

theorem fileLayer_of_supplies {disk : Disk} {path : String} {table : Layer}
    (h : FileSupplies disk path table) : fileLayer disk path = .ok table := by
  cases h with
  | missing h => simp [fileLayer, h]
  | parsed h characters settings => simp [fileLayer, h, characters, settings]

theorem fileLayer_of_malformed {disk : Disk} {path : String} (h : FileMalformed disk path) :
    fileLayer disk path = .error .malformedFile := by
  obtain ⟨bytes, found, refused⟩ := h
  cases characters : Disk.textOf bytes with
  | error => simp [fileLayer, found, characters]
  | ok text => simp [fileLayer, found, characters, refused text characters]

theorem malformed_or_supplies (disk : Disk) (path : String) :
    FileMalformed disk path ∨ ∃ table, FileSupplies disk path table := by
  cases found : fileBytes? disk path with
  | none => exact .inr ⟨[], .missing found⟩
  | some bytes =>
    cases characters : Disk.textOf bytes with
    | error => exact .inl ⟨bytes, found, fun text read => by simp [characters] at read⟩
    | ok text =>
      cases settings : Toml.settings? text with
      | none =>
        refine .inl ⟨bytes, found, fun text' read => ?_⟩
        rw [characters, Except.ok.injEq] at read
        exact read ▸ settings
      | some table => exact .inr ⟨table, .parsed found characters settings⟩

/-! ## Judging the values -/

variable {layers : List Layer}

theorem readSwitch_eq_ok_iff {name : String} {standard b : Bool} :
    readSwitch layers name standard = .ok b ↔
      (winner? layers name).or (some (.switch standard)) = some (.switch b) := by
  rw [readSwitch]
  cases winner? layers name with
  | none => simp
  | some v => cases v <;> simp

theorem readPath?_eq_ok_iff {name : String} {path : Option String} :
    readPath? layers name = .ok path ↔ winner? layers name = path.map .text := by
  rw [readPath?]
  cases winner? layers name with
  | none => cases path <;> simp
  | some v => cases v <;> cases path <;> simp

theorem readSwitch_eq_error_iff {name : String} {standard : Bool} {e : ConfigError} :
    readSwitch layers name standard = .error e ↔
      e = .wrongKind name ∧ ∃ v, winner? layers name = some v ∧ ∀ b, v ≠ .switch b := by
  rw [readSwitch]
  cases winner? layers name with
  | none => simp
  | some v => cases v <;> simp [eq_comm]

theorem readPath?_eq_error_iff {name : String} {e : ConfigError} :
    readPath? layers name = .error e ↔
      e = .wrongKind name ∧ ∃ v, winner? layers name = some v ∧ ∀ path, v ≠ .text path := by
  rw [readPath?]
  cases winner? layers name with
  | none => simp
  | some v => cases v <;> simp [eq_comm]

/-- The error says of which key the value is of the wrong kind. -/
def Misfit (layers : List Layer) (e : ConfigError) : Prop :=
  ∃ (key : Key) (v : Setting), e = .wrongKind key.name ∧ winner? layers key.name = some v ∧
    ¬key.Accepts v

/-- The configuration has under each key the value of the layers. -/
theorem ofLayers_eq_ok_iff {config : Config} :
    ofLayers layers = .ok config ↔
      ∀ key : Key, (winner? layers key.name).or (({} : Config).value? key) = config.value? key := by
  constructor
  · intro h
    obtain ⟨cache, hcache, h⟩ := bind_eq_ok_iff.1 h
    obtain ⟨dryRun, hdryRun, h⟩ := bind_eq_ok_iff.1 h
    obtain ⟨outDir, houtDir, h⟩ := bind_eq_ok_iff.1 h
    obtain ⟨snapshot, hsnapshot, h⟩ := bind_eq_ok_iff.1 h
    obtain ⟨strict, hstrict, h⟩ := bind_eq_ok_iff.1 h
    cases h
    intro key
    cases key with
    | cache => exact readSwitch_eq_ok_iff.1 hcache
    | dryRun => exact readSwitch_eq_ok_iff.1 hdryRun
    | outDir =>
      rw [Key.name, readPath?_eq_ok_iff.1 houtDir]
      cases outDir <;> rfl
    | snapshot =>
      rw [Key.name, readPath?_eq_ok_iff.1 hsnapshot]
      exact Option.or_none
    | strict => exact readSwitch_eq_ok_iff.1 hstrict
  · intro h
    have snapshot : winner? layers "snapshot" = config.snapshot.map .text :=
      Option.or_none.symm.trans (h .snapshot)
    have outDir : ∃ path, readPath? layers "out_dir" = .ok path ∧
        path.getD ({} : Config).outDir = config.outDir := by
      have value := h .outDir
      rw [Key.name] at value
      cases won : winner? layers "out_dir" with
      | none =>
        rw [won, Option.none_or] at value
        exact ⟨none, readPath?_eq_ok_iff.2 won, Setting.text.inj (Option.some.inj value)⟩
      | some v =>
        rw [won, Option.some_or] at value
        exact ⟨config.outDir, readPath?_eq_ok_iff.2 (won.trans value), rfl⟩
    obtain ⟨path, houtDir, same⟩ := outDir
    refine bind_eq_ok_iff.2 ⟨config.cache, readSwitch_eq_ok_iff.2 (h .cache), ?_⟩
    refine bind_eq_ok_iff.2 ⟨config.dryRun, readSwitch_eq_ok_iff.2 (h .dryRun), ?_⟩
    refine bind_eq_ok_iff.2 ⟨path, houtDir, ?_⟩
    refine bind_eq_ok_iff.2 ⟨config.snapshot, readPath?_eq_ok_iff.2 snapshot, ?_⟩
    refine bind_eq_ok_iff.2 ⟨config.strict, readSwitch_eq_ok_iff.2 (h .strict), ?_⟩
    rw [same]
    rfl

theorem bind_eq_error {ε α β : Type} {x : Except ε α} {f : α → Except ε β} {e : ε}
    (h : x >>= f = .error e) : x = .error e ∨ ∃ a, x = .ok a ∧ f a = .error e := by
  cases x with
  | error cause =>
    cases h
    exact .inl rfl
  | ok a => exact .inr ⟨a, rfl, h⟩

theorem misfit_of_ofLayers {e : ConfigError} (h : ofLayers layers = .error e) :
    Misfit layers e := by
  have switch (key : Key) (flag : key ≠ .outDir ∧ key ≠ .snapshot) {standard : Bool}
      (h : readSwitch layers key.name standard = .error e) : Misfit layers e := by
    obtain ⟨rfl, v, won, unfit⟩ := readSwitch_eq_error_iff.1 h
    refine ⟨key, v, rfl, won, fun accepted => ?_⟩
    cases key <;> cases v <;> simp_all [Key.Accepts]
  have path (key : Key) (takesPath : key = .outDir ∨ key = .snapshot)
      (h : readPath? layers key.name = .error e) : Misfit layers e := by
    obtain ⟨rfl, v, won, unfit⟩ := readPath?_eq_error_iff.1 h
    refine ⟨key, v, rfl, won, fun accepted => ?_⟩
    cases key <;> cases v <;> simp_all [Key.Accepts]
  obtain h | ⟨_, -, h⟩ := bind_eq_error h
  · exact switch .cache (by decide) h
  obtain h | ⟨_, -, h⟩ := bind_eq_error h
  · exact switch .dryRun (by decide) h
  obtain h | ⟨_, -, h⟩ := bind_eq_error h
  · exact path .outDir (by decide) h
  obtain h | ⟨_, -, h⟩ := bind_eq_error h
  · exact path .snapshot (by decide) h
  obtain h | ⟨_, -, h⟩ := bind_eq_error h
  · exact switch .strict (by decide) h
  · cases h

/-! ## Loading -/

/-- The result has under each key the one value that is supplied, or refuses such a value, which is
of the wrong kind. -/
structure LoadedFrom (supplied : Key → Option Setting → Prop) (result : Except ConfigError Config) :
    Prop where
  one : ∀ key, ∃! v, supplied key v
  loaded : ∀ config, result = .ok config ↔ ∀ key, supplied key (config.value? key)
  refused : (∃ name, result = .error (.wrongKind name)) ↔
    ∃ key v, supplied key (some v) ∧ ¬key.Accepts v
  named : ∀ e, result = .error e →
    ∃ key v, e = .wrongKind key.name ∧ supplied key (some v) ∧ ¬key.Accepts v

theorem loadedFrom_ofLayers (args : Arguments) (env : Environment) (file : Layer) :
    LoadedFrom (Supplied args env file)
      (ofLayers [.ofArguments args, .ofEnvironment env, file]) := by
  have named (e : ConfigError)
      (h : ofLayers [.ofArguments args, .ofEnvironment env, file] = .error e) :
      ∃ key v, e = .wrongKind key.name ∧ Supplied args env file key (some v) ∧ ¬key.Accepts v := by
    obtain ⟨key, v, rfl, won, misfit⟩ := misfit_of_ofLayers h
    exact ⟨key, v, rfl, supplied_iff.2 (by rw [won, Option.some_or]), misfit⟩
  have loaded (config : Config) :
      ofLayers [.ofArguments args, .ofEnvironment env, file] = .ok config ↔
      ∀ key, Supplied args env file key (config.value? key) := by
    simp only [ofLayers_eq_ok_iff, supplied_iff]
  refine ⟨fun key => ⟨_, supplied_iff.2 rfl, fun v h => (supplied_iff.1 h).symm⟩, loaded, ?_, named⟩
  constructor
  · rintro ⟨name, h⟩
    obtain ⟨key, v, -, misfit⟩ := named _ h
    exact ⟨key, v, misfit⟩
  · rintro ⟨key, v, h, misfit⟩
    cases result : ofLayers [.ofArguments args, .ofEnvironment env, file] with
    | ok config =>
      have value := (loaded config).1 result key
      have same := (supplied_iff.1 value).symm.trans (supplied_iff.1 h)
      exact absurd (accepts_of_value? same) misfit
    | error e =>
      obtain ⟨key', v', rfl, -⟩ := named e result
      exact ⟨_, rfl⟩

/-- **Every key has the value of the highest layer that supplies it.** One file is named, by the
command line, or else by its variable, or else by default. If it cannot be parsed, that is the
error, whatever the other layers supply. Otherwise each key has one value that is supplied, no
matter what is supplied under the others, and these values make the configuration; if one of them is
of the wrong kind, this is an error, and there is no other. The variables for logging and for the
file supply nothing. -/
theorem load_by_layers :
    (∀ (args : Arguments) (env : Environment), ∃! path, FileNamed args env path) ∧
    (∀ args env path disk, FileNamed args env path →
      (FileMalformed disk path → load args env disk = .error .malformedFile) ∧
      (¬FileMalformed disk path → ∃ table, FileSupplies disk path table) ∧
      ∀ table, FileSupplies disk path table →
        LoadedFrom (Supplied args env table) (load args env disk)) ∧
    (∀ (key : Key) text, VariableGives (key.variableName, text) key (.ofText text)) ∧
    ∀ name ∈ ["ACCESSORGEN_LOG", "ACCESSORGEN_CONFIG_PATH"], ∀ text key v,
      ¬VariableGives (name, text) key v := by
  refine ⟨fun args env => ?_, fun args env path disk named => ⟨?_, ?_, ?_⟩, ?_, ?_⟩
  · exact ⟨_, fileNamed_iff.2 rfl, fun path named => (fileNamed_iff.1 named).symm⟩
  · intro malformed
    rw [load, fileNamed_iff.1 named, fileLayer_of_malformed malformed]
    rfl
  · exact (malformed_or_supplies disk path).resolve_left
  · intro table supplies
    rw [load, fileNamed_iff.1 named, fileLayer_of_supplies supplies]
    exact loadedFrom_ofLayers args env table
  · intro key text
    exact .whole (Layer.keyParts?_variableName key)
  · simp only [List.forall_mem_cons, List.not_mem_nil, false_imp_iff, implies_true, and_true]
    constructor
    · rintro text key v (parts | parts) <;> simp [Layer.keyParts?_log] at parts
    · rintro text key v (parts | parts) <;> simp [Layer.keyParts?_configPath] at parts

/-- The variable `ACCESSORGEN_OUT_DIR` and the key `strict` of the file hold numbers, each below a
layer that hides it. The flag that is not raised hides nothing. Without the command line the number
counts, and if the file is cut short, only that counts. -/
theorem load_by_layers_with_numbers :
    let args : Arguments := { outDir := some "out" }
    let env : Environment :=
      ⟨[("ACCESSORGEN_OUT_DIR", "7"), ("ACCESSORGEN_STRICT", "true"),
        ("ACCESSORGEN_CONFIG_PATH", "own.toml")]⟩
    let disk (text : String) : Disk := ⟨[(["own.toml"], .file (bytesOf text))], []⟩
    load args env (disk "strict = 3\ncache = true") =
        .ok { outDir := "out", strict := true, cache := true } ∧
      (∃ name, load {} env (disk "strict = 3\ncache = true") = .error (.wrongKind name)) ∧
      load {} env (disk "strict = ") = .error .malformedFile := by
  intro args env disk
  have settings : Toml.settings? "strict = 3\ncache = true" =
      some [("cache", .switch true), ("strict", .other)] := by decide
  have unfinished : Toml.settings? "strict = " = none := by decide
  have content (text : String) : fileBytes? (disk text) "own.toml" = some (bytesOf text) := by
    have checked : Disk.checkPath (Path.join (Disk.pathOf []) "own.toml") = .ok () := rfl
    have single : upwards [] = [[]] := rfl
    rw [fileBytes?, single, List.findSome?_singleton, checked]
    rfl
  have supplies := FileSupplies.parsed (content _) (Disk.textOf_bytesOf _) settings
  have named (args : Arguments) (default : args.configPath = none) :
      FileNamed args env "own.toml" := .environment default rfl
  have above : Layer.ofEnvironment env = [("out_dir", .other), ("strict", .switch true)] := by
    have outDir := Layer.keyParts?_variableName .outDir
    have strict := Layer.keyParts?_variableName .strict
    simp only [Key.variableName, Key.name] at outDir strict
    simp only [Layer.ofEnvironment, env, List.flatMap_cons, List.flatMap_nil, Layer.ofVariable,
      outDir, strict, Layer.keyParts?_configPath]
    decide
  obtain ⟨-, fromFile, -⟩ := load_by_layers
  refine ⟨?_, ?_, ?_⟩
  · refine (((fromFile args env _ _ (named args rfl)).2.2 _ supplies).loaded _).2 fun key => ?_
    rw [supplied_iff, above]
    cases key <;> decide
  · refine ((fromFile {} env _ _ (named {} rfl)).2.2 _ supplies).refused.2 ⟨.outDir, .other, ?_, id⟩
    rw [supplied_iff, above]
    decide
  · refine (fromFile {} env _ _ (named {} rfl)).1 ⟨_, content _, fun text characters => ?_⟩
    rw [Disk.textOf_bytesOf, Except.ok.injEq] at characters
    exact characters ▸ unfinished

end Config

end HierarchyAccessors
