import HierarchyAccessors.Generation
import Mathlib.Logic.Relation

/-!
# What a pass depends on

A pass reads little of what it is given: the markings in source order, that is, the variables of
the marked declarations with the first argument of the first marker (`markings`), and what the host
answers about these variables and arguments. Files can be edited in many ways that leave the
markings alone (`Edit`), and two lists of files have the same markings just if such edits lead from
one to the other (`markings_eq_iff`).

**Theorem (`generate_depends_on_markings`).** Files that differ by such edits, with hosts that agree
on the markings, give the same units and the same diagnostics in the same order.
-/

namespace HierarchyAccessors

/-! ## Markings -/

/-- What a pass reads of a marked declaration. -/
structure Marking where
  declared : List Variable
  /-- The first argument of the first marker. -/
  argument? : Option Expression
deriving DecidableEq

def FieldDeclaration.marking? (field : FieldDeclaration) : Option Marking :=
  field.marker?.map fun marker => ⟨field.declared, marker.arguments.head?⟩

/-- The markings of members in source order. -/
def markingsOf (members : List Member) : List Marking :=
  (Member.fieldsOf members).filterMap FieldDeclaration.marking?

/-- The markings of all files in source order. -/
def markings (files : List SourceFile) : List Marking :=
  files.flatMap fun file => markingsOf file.members

/-- The facts agree on the variables and on the arguments of the markings. -/
structure SameAnswers (read : List Marking) (facts facts' : Facts) : Prop where
  symbol? : ∀ a ∈ read, ∀ v ∈ a.declared, facts.symbol? v = facts'.symbol? v
  constant? : ∀ a ∈ read, ∀ argument ∈ a.argument?,
    facts.constant? argument = facts'.constant? argument

/-! ## From markings to the output -/

/-- What becomes of the variables of a marking. The marker's name and its other arguments do not
matter, so any will do. -/
def Marking.outcomes (a : Marking) (facts : Facts) : List (Except Diagnostic ResolvedField) :=
  a.declared.map (·.outcome ⟨Schema.shortName, a.argument?.toList⟩ facts)

theorem Attribute.source_congr {marker marker' : Attribute} {facts facts' : Facts}
    (first : marker.arguments.head? = marker'.arguments.head?)
    (answers : ∀ argument ∈ marker.arguments.head?,
      facts.constant? argument = facts'.constant? argument) :
    marker.source facts = marker'.source facts' := by
  unfold Attribute.source
  match marker.arguments, marker'.arguments, first, answers with
  | [], [], _, _ => rfl
  | argument :: more, argument' :: more', first, answers =>
    obtain rfl : argument = argument' := by simpa using first
    have same : facts.constant? argument = facts'.constant? argument := answers argument rfl
    dsimp only
    rw [same]

theorem Variable.outcome_congr {v : Variable} {marker marker' : Attribute} {facts facts' : Facts}
    (symbol : facts.symbol? v = facts'.symbol? v)
    (source : marker.source facts = marker'.source facts') :
    v.outcome marker facts = v.outcome marker' facts' := by
  unfold Variable.outcome
  rw [symbol, source]

/-- The marking of a marked field. -/
def MarkedField.marking (field : MarkedField) : Marking :=
  ⟨field.declaration.declared, field.marker.arguments.head?⟩

theorem map_marking_markedFields (files : List SourceFile) :
    (markedFields files).map (·.marking) = markings files := by
  have ofFile (file : SourceFile) :
      file.markedFields.map (·.marking) = markingsOf file.members := by
    rw [SourceFile.markedFields, List.map_filterMap, markingsOf]
    congr 1
    funext field
    rw [Option.map_map]
    rfl
  simp only [markedFields, markings, List.map_flatMap, ofFile]

/-- The marker's name and its other arguments do not matter. -/
theorem MarkedField.outcomes_marking (field : MarkedField) (facts : Facts) :
    field.declaration.declared.map (·.outcome field.marker facts) =
      field.marking.outcomes facts := by
  apply List.map_congr_left
  intro v _
  apply Variable.outcome_congr rfl
  apply Attribute.source_congr
  · exact Option.head?_toList.symm
  · intro argument _
    rfl

/-- The outcomes are those of the markings. -/
theorem outcomes_eq (files : List SourceFile) (facts : Facts) :
    outcomes (markedFields files) facts = (markings files).flatMap (·.outcomes facts) := by
  unfold outcomes
  simp only [MarkedField.outcomes_marking]
  rw [← map_marking_markedFields, List.flatMap_map]

theorem Marking.outcomes_congr {a : Marking} {facts facts' : Facts}
    (symbol : ∀ v ∈ a.declared, facts.symbol? v = facts'.symbol? v)
    (constant : ∀ argument ∈ a.argument?, facts.constant? argument = facts'.constant? argument) :
    a.outcomes facts = a.outcomes facts' := by
  apply List.map_congr_left
  intro v hv
  apply Variable.outcome_congr (symbol v hv)
  apply Attribute.source_congr rfl
  intro argument hargument
  rw [Option.head?_toList] at hargument
  exact constant argument hargument

/-- A pass is determined by the outcomes. -/
theorem generate_congr {files files' : List SourceFile} {facts facts' : Facts}
    (h : outcomes (markedFields files) facts = outcomes (markedFields files') facts') :
    generate files facts = generate files' facts' := by
  unfold generate resolve
  rw [h]

/-! ## Edits that no pass can see -/

/-- Members are edited in a way that leaves the markings alone. -/
inductive MemberEdit : List Member → List Member → Prop
  /-- A member of no concern is taken away. -/
  | other : MemberEdit [.other] []
  /-- A field without a marker is taken away. -/
  | unmarked {field : FieldDeclaration} (h : field.marker? = none) :
    MemberEdit [.fieldDecl field] []
  /-- A marked field is changed, but for its variables and the first argument of its first
  marker. -/
  | marked {field field' : FieldDeclaration} {marker marker' : Attribute}
    (h : field.marker? = some marker) (h' : field'.marker? = some marker')
    (declared : field.declared = field'.declared)
    (first : marker.arguments.head? = marker'.arguments.head?) :
    MemberEdit [.fieldDecl field] [.fieldDecl field']
  /-- The members of a namespace take its place. -/
  | namespaceDecl (name : String) (members : List Member) :
    MemberEdit [.namespaceDecl name members] members
  /-- The members of a type take its place. -/
  | typeDecl (name : String) (members : List Member) :
    MemberEdit [.typeDecl name members] members
  /-- The edit is made between other members. -/
  | within (before after : List Member) {members members' : List Member}
    (h : MemberEdit members members') :
    MemberEdit (before ++ members ++ after) (before ++ members' ++ after)

/-- Files are edited in a way that leaves the markings alone. -/
inductive Edit : List SourceFile → List SourceFile → Prop
  | path (path path' : String) (members : List Member) :
    Edit [⟨path, members⟩] [⟨path', members⟩]
  /-- A file is cut in two. -/
  | split (path path' : String) (members more : List Member) :
    Edit [⟨path, members ++ more⟩] [⟨path, members⟩, ⟨path', more⟩]
  /-- A file without members is taken away. -/
  | empty (path : String) : Edit [⟨path, []⟩] []
  | members (path : String) {members members' : List Member} (h : MemberEdit members members') :
    Edit [⟨path, members⟩] [⟨path, members'⟩]
  /-- The edit is made between other files. -/
  | within (before after : List SourceFile) {files files' : List SourceFile}
    (h : Edit files files') : Edit (before ++ files ++ after) (before ++ files' ++ after)

/-! ## Edits keep the markings -/

theorem markingsOf_append (members more : List Member) :
    markingsOf (members ++ more) = markingsOf members ++ markingsOf more := by
  rw [markingsOf, Member.fieldsOf_append, List.filterMap_append]
  rfl

theorem markings_append (files more : List SourceFile) :
    markings (files ++ more) = markings files ++ markings more :=
  List.flatMap_append

theorem markings_singleton (path : String) (members : List Member) :
    markings [⟨path, members⟩] = markingsOf members := by
  simp [markings]

theorem markingsOf_fieldDecl (field : FieldDeclaration) :
    markingsOf [.fieldDecl field] = field.marking?.toList := by
  rw [markingsOf, Member.fieldsOf, Member.fields, Member.fieldsOf, List.append_nil]
  cases h : field.marking? <;> simp [h]

theorem MemberEdit.markingsOf_eq {members members' : List Member}
    (h : MemberEdit members members') : markingsOf members = markingsOf members' := by
  induction h with
  | other => rfl
  | unmarked h =>
    rw [markingsOf_fieldDecl, FieldDeclaration.marking?, h]
    rfl
  | marked h h' declared first =>
    rw [markingsOf_fieldDecl, markingsOf_fieldDecl, FieldDeclaration.marking?,
      FieldDeclaration.marking?, h, h', Option.map_some, Option.map_some, declared, first]
  | namespaceDecl | typeDecl => simp [markingsOf, Member.fieldsOf, Member.fields]
  | within before after _ ih => simp only [markingsOf_append, ih]

theorem Edit.markings_eq {files files' : List SourceFile} (h : Edit files files') :
    markings files = markings files' := by
  induction h with
  | path => rfl
  | split path path' members more =>
    rw [markings_singleton, markingsOf_append]
    simp [markings]
  | empty => rfl
  | members path h => rw [markings_singleton, markings_singleton, h.markingsOf_eq]
  | within before after _ ih => simp only [markings_append, ih]

/-! ## Markings determine the files up to edits -/

open Relation (EqvGen)

/-- A declaration with just what the marking says. -/
def Marking.field (a : Marking) : FieldDeclaration where
  attributeLists := [[⟨Schema.shortName, a.argument?.toList⟩]]
  writtenType := ""
  declared := a.declared

theorem Marking.marker?_field (a : Marking) :
    a.field.marker? = some ⟨Schema.shortName, a.argument?.toList⟩ := by
  have named : isMarker Schema.shortName = true := by decide
  simp [FieldDeclaration.marker?, FieldDeclaration.attributes, Marking.field, named]

/-- The members that are nothing but the markings. -/
def bareMembers (read : List Marking) : List Member :=
  read.map (.fieldDecl ·.field)

theorem bareMembers_append (read more : List Marking) :
    bareMembers (read ++ more) = bareMembers read ++ bareMembers more :=
  List.map_append

/-- Steps that a function carries over are carried over in any number and direction. -/
theorem eqvGen_map {α β : Type} {r : α → α → Prop} {s : β → β → Prop} (f : α → β)
    (hf : ∀ a b, r a b → s (f a) (f b)) {a b : α} (h : EqvGen r a b) : EqvGen s (f a) (f b) := by
  induction h with
  | rel a b step => exact .rel _ _ (hf a b step)
  | refl a => exact .refl _
  | symm _ _ _ ih => exact ih.symm
  | trans _ _ _ _ _ ih ih' => exact .trans _ _ _ ih ih'

theorem eqvGen_fieldDecl (field : FieldDeclaration) :
    EqvGen MemberEdit [.fieldDecl field] (bareMembers field.marking?.toList) := by
  unfold FieldDeclaration.marking?
  cases h : field.marker? with
  | none => exact .rel _ _ (.unmarked h)
  | some marker =>
    exact .rel _ _ (.marked h (Marking.marker?_field _) rfl Option.head?_toList.symm)

mutual

theorem eqvGen_member : (member : Member) →
    EqvGen MemberEdit [member] (bareMembers (markingsOf [member]))
  | .namespaceDecl name members => by
    rw [(MemberEdit.namespaceDecl name members).markingsOf_eq]
    exact .trans _ _ _ (.rel _ _ (.namespaceDecl name members)) (eqvGen_members members)
  | .typeDecl name members => by
    rw [(MemberEdit.typeDecl name members).markingsOf_eq]
    exact .trans _ _ _ (.rel _ _ (.typeDecl name members)) (eqvGen_members members)
  | .fieldDecl field => by
    rw [markingsOf_fieldDecl]
    exact eqvGen_fieldDecl field
  | .other => .rel _ _ .other

/-- All but the markings can be edited away. -/
theorem eqvGen_members : (members : List Member) →
    EqvGen MemberEdit members (bareMembers (markingsOf members))
  | [] => .refl _
  | member :: members => by
    let bare := bareMembers (markingsOf [member])
    have first := eqvGen_map ([] ++ · ++ members) (fun _ _ => MemberEdit.within [] members)
      (eqvGen_member member)
    have rest := eqvGen_map (bare ++ · ++ []) (fun _ _ => MemberEdit.within bare [])
      (eqvGen_members members)
    rw [List.append_nil, List.append_nil, ← bareMembers_append, ← markingsOf_append] at rest
    exact .trans _ _ _ first rest

end

/-- A file that holds nothing but the markings. -/
def bareFile (read : List Marking) : SourceFile :=
  ⟨"", bareMembers read⟩

theorem eqvGen_file (file : SourceFile) :
    EqvGen Edit [file] [bareFile (markingsOf file.members)] := by
  have edited := eqvGen_map (fun members => [SourceFile.mk file.path members])
    (fun _ _ => Edit.members file.path) (eqvGen_members file.members)
  exact .trans _ _ _ edited (.rel _ _ (.path file.path "" _))

/-- All but the markings can be edited away, and then all files put together. -/
theorem eqvGen_files (files : List SourceFile) :
    EqvGen Edit files [bareFile (markings files)] := by
  induction files with
  | nil => exact .symm _ _ (.rel _ _ (.empty ""))
  | cons file files ih =>
    let bare := [bareFile (markingsOf file.members)]
    have first := eqvGen_map ([] ++ · ++ files) (fun _ _ => Edit.within [] files) (eqvGen_file file)
    have rest := eqvGen_map (bare ++ · ++ []) (fun _ _ => Edit.within bare []) ih
    rw [List.append_nil, List.append_nil] at rest
    have cut := Edit.split "" "" (bareMembers (markingsOf file.members))
      (bareMembers (markings files))
    rw [← bareMembers_append] at cut
    exact .trans _ _ _ first (.trans _ _ _ rest (.symm _ _ (.rel _ _ cut)))

/-- **Files have the same markings just if edits lead from one to the other.** -/
theorem markings_eq_iff {files files' : List SourceFile} :
    markings files = markings files' ↔ EqvGen Edit files files' := by
  constructor
  · intro same
    have here := eqvGen_files files
    rw [same] at here
    exact .trans _ _ _ here (.symm _ _ (eqvGen_files files'))
  · intro edits
    induction edits with
    | rel _ _ edit => exact edit.markings_eq
    | refl _ => rfl
    | symm _ _ _ ih => exact ih.symm
    | trans _ _ _ _ _ ih ih' => exact ih.trans ih'

/-! ## Independence -/

/-- **A pass depends on nothing but the markings and the answers about them.** Two lists of files
with the same markings, under facts that agree on these, give the same units and the same
diagnostics in the same order. Whatever the edits change is free, since the markings are the same
just if edits lead from one list of files to the other. -/
theorem generate_depends_on_markings :
    (∀ (files files' : List SourceFile) (facts facts' : Facts),
      markings files = markings files' → SameAnswers (markings files) facts facts' →
      generate files facts = generate files' facts') ∧
    ∀ files files' : List SourceFile,
      markings files = markings files' ↔ EqvGen Edit files files' := by
  refine ⟨?_, fun files files' => markings_eq_iff⟩
  intro files files' facts facts' same answers
  apply generate_congr
  rw [outcomes_eq, outcomes_eq, ← same, List.flatMap_def, List.flatMap_def]
  congr 1
  apply List.map_congr_left
  intro a ha
  exact Marking.outcomes_congr (answers.symbol? a ha) (answers.constant? a ha)

/-- A field is moved out of its namespace and its type into another file, with another type, behind
another attribute, and with another name of the marker and one more argument. The hosts differ in
what they answer elsewhere. -/
theorem generate_moved_field :
    let marker : Attribute := ⟨"FromHierarchy", [⟨1, "Self"⟩]⟩
    let marker' : Attribute := ⟨"global::FromHierarchyAttribute", [⟨1, "Self"⟩, ⟨3, "more"⟩]⟩
    let field : FieldDeclaration := ⟨[[marker]], "Body", [⟨2, "_body"⟩]⟩
    let field' : FieldDeclaration := ⟨[[⟨"Serialize", []⟩, marker']], "object", [⟨2, "_body"⟩]⟩
    let files : List SourceFile :=
      [⟨"A.cs", [.namespaceDecl "A" [.typeDecl "C" [.other, .fieldDecl field]]]⟩]
    let files' : List SourceFile := [⟨"B.cs", []⟩, ⟨"C.cs", [.fieldDecl field']⟩]
    let binding : FieldBinding := ⟨"_body", .named "A.Body", ⟨7, "C", some "A", []⟩⟩
    let facts : Facts :=
      ⟨fun v => if v.id = 2 then some binding else none, fun _ => some (.integer 1)⟩
    let facts' : Facts :=
      ⟨fun _ => some binding, fun e => if e.id = 1 then some (.integer 1) else none⟩
    markings files = markings files' ∧ SameAnswers (markings files) facts facts' ∧
      generate files facts = generate files' facts' := by
  intro marker marker' field field' files files' binding facts facts'
  have read : markings files = [⟨[⟨2, "_body"⟩], some ⟨1, "Self"⟩⟩] := by decide
  have same : markings files = markings files' := by decide
  have answers : SameAnswers (markings files) facts facts' := by
    rw [read]
    constructor <;> simp [facts, facts']
  exact ⟨same, answers, generate_depends_on_markings.1 files files' facts facts' same answers⟩

end HierarchyAccessors
