import HierarchyAccessors.Proofs.Compilation.Ledger
import Mathlib.Data.List.Count
import Mathlib.Data.List.Perm.Basic

/-!
# Declarations inside types, types inside files

`Member.nestedFields` lists the field declarations of a member together with the namespaces and
types around them. While a file is in the making, `OpenFile.held` lists its members with the symbols
of the types that hold them.

Several types of a file may share an id: a symbol that is handed out later can have the id of an
owner from elsewhere. Only the first of them ever gets members. With this invariant
(`OpenFile.Follows`) the members of every owner stand in the order of the calls, as the ledger of
the file has them; across owners they are regrouped (`Follows.perm_nestedFields`).
-/

namespace HierarchyAccessors

/-! ## Scopes -/

/-- What stands around a declaration. -/
inductive Scope
  | inNamespace (name : String)
  | inType (name : String)
deriving DecidableEq

/-- The namespace of a type, the types that contain it and the type itself, outermost first. -/
def NamedType.scopes (type : NamedType) : List Scope :=
  type.namespaceName.toList.map .inNamespace ++ (type.containingTypes ++ [type.name]).map .inType

/-- The declarations further inside. -/
def within (scopes : List Scope) (fields : List (List Scope × FieldDeclaration)) :
    List (List Scope × FieldDeclaration) :=
  fields.map fun (more, field) => (scopes ++ more, field)

@[simp] theorem within_nil (fields : List (List Scope × FieldDeclaration)) :
    within [] fields = fields :=
  List.map_id fields

theorem within_within (scopes more : List Scope)
    (fields : List (List Scope × FieldDeclaration)) :
    within scopes (within more fields) = within (scopes ++ more) fields := by
  simp [within]

namespace Member

mutual

/-- The field declarations of a member in source order, with what stands around them. -/
def nestedFields : Member → List (List Scope × FieldDeclaration)
  | namespaceDecl name members => within [.inNamespace name] (nestedFieldsOf members)
  | typeDecl name members => within [.inType name] (nestedFieldsOf members)
  | fieldDecl declaration => [([], declaration)]
  | other => []

def nestedFieldsOf : List Member → List (List Scope × FieldDeclaration)
  | [] => []
  | member :: members => member.nestedFields ++ nestedFieldsOf members

end

theorem nestedFieldsOf_eq_flatMap (members : List Member) :
    nestedFieldsOf members = members.flatMap nestedFields := by
  induction members with
  | nil => rfl
  | cons member members ih => rw [nestedFieldsOf, ih, List.flatMap_cons]

mutual

theorem map_snd_nestedFields : (member : Member) → member.nestedFields.map (·.2) = member.fields
  | namespaceDecl name members => by
    rw [nestedFields, within, List.map_map, fields, ← map_snd_nestedFieldsOf members]
    rfl
  | typeDecl name members => by
    rw [nestedFields, within, List.map_map, fields, ← map_snd_nestedFieldsOf members]
    rfl
  | fieldDecl declaration => rfl
  | other => rfl

theorem map_snd_nestedFieldsOf : (members : List Member) →
    (nestedFieldsOf members).map (·.2) = fieldsOf members
  | [] => rfl
  | member :: members => by
    rw [nestedFieldsOf, List.map_append, map_snd_nestedFields member,
      map_snd_nestedFieldsOf members, fieldsOf]

end

end Member

namespace SourceFile

/-- The field declarations of a file in source order, with what stands around them. -/
def nestedFields (file : SourceFile) : List (List Scope × FieldDeclaration) :=
  Member.nestedFieldsOf file.members

theorem map_snd_nestedFields (file : SourceFile) :
    file.nestedFields.map (·.2) = file.fields :=
  Member.map_snd_nestedFieldsOf file.members

end SourceFile

/-- The declarations of a type stand inside the scopes of its symbol. -/
theorem OpenType.nestedFields_member (type : OpenType) :
    type.member.nestedFields =
      within type.symbol.scopes (Member.nestedFieldsOf type.members) := by
  have wrapped (name : String) (inner : Member) :
      (Member.typeDecl name [inner]).nestedFields = within [.inType name] inner.nestedFields := by
    rw [Member.nestedFields, Member.nestedFieldsOf, Member.nestedFieldsOf, List.append_nil]
  have nested (names : List String) (inner : Member) :
      (names.foldr (fun name inner => .typeDecl name [inner]) inner).nestedFields =
        within (names.map .inType) inner.nestedFields := by
    induction names with
    | nil => exact (within_nil _).symm
    | cons name names ih =>
      rw [List.foldr_cons, wrapped, ih, within_within]
      rfl
  have contained : (type.symbol.containingTypes.foldr
      (fun name inner => Member.typeDecl name [inner])
      (Member.typeDecl type.symbol.name type.members)).nestedFields =
        within ((type.symbol.containingTypes ++ [type.symbol.name]).map .inType)
          (Member.nestedFieldsOf type.members) := by
    rw [nested, Member.nestedFields, within_within, List.map_append]
    rfl
  unfold member NamedType.scopes
  cases type.symbol.namespaceName with
  | none => exact contained
  | some name =>
    rw [← within_within, ← contained]
    exact congrArg (within [.inNamespace name]) (List.append_nil _)

/-! ## Members of types -/

namespace OpenFile

open Compilation

/-- The members of the types, each with the symbol of the type that holds it. -/
def held (types : List OpenType) : List (NamedType × Member) :=
  types.flatMap fun type => type.members.map (type.symbol, ·)

theorem nestedFields_file (file : OpenFile) :
    file.file.nestedFields = (held file.types).flatMap
      fun (symbol, member) => within symbol.scopes member.nestedFields := by
  have one (type : OpenType) : type.member.nestedFields =
      (type.members.map (type.symbol, ·)).flatMap
        fun (symbol, member) => within symbol.scopes member.nestedFields := by
    rw [type.nestedFields_member, Member.nestedFieldsOf_eq_flatMap, within, List.map_flatMap,
      List.flatMap_map]
    rfl
  rw [SourceFile.nestedFields, Member.nestedFieldsOf_eq_flatMap, OpenFile.file, List.flatMap_map,
    held, List.flatMap_assoc]
  exact List.flatMap_congr fun type _ => one type

/-- A member is added to the first type with the owner's id, or to a new type after all others. -/
theorem addMember_cases (owner : NamedType) (member : Member) (types : List OpenType) :
    (∃ before type after, types = before ++ type :: after ∧ type.symbol.id = owner.id ∧
      (∀ earlier ∈ before, earlier.symbol.id ≠ owner.id) ∧
      addMember owner member types =
        before ++ { type with members := type.members ++ [member] } :: after) ∨
    (∀ type ∈ types, type.symbol.id ≠ owner.id) ∧
      addMember owner member types = types ++ [⟨owner, [member]⟩] := by
  induction types with
  | nil => exact .inr ⟨nofun, rfl⟩
  | cons type types ih =>
    by_cases same : type.symbol.id = owner.id
    · exact .inl ⟨[], type, types, rfl, same, nofun, if_pos same⟩
    · have later : addMember owner member (type :: types) =
          type :: addMember owner member types := if_neg same
      rcases ih with ⟨before, found, after, rfl, known, others, added⟩ | ⟨others, added⟩
      · refine .inl ⟨type :: before, found, after, rfl, known, ?_, by rw [later, added]; rfl⟩
        exact List.forall_mem_cons.2 ⟨same, others⟩
      · exact .inr ⟨List.forall_mem_cons.2 ⟨same, others⟩, by rw [later, added]; rfl⟩

/-- What is held by the types with the id. -/
def heldBy (id : SymbolId) (types : List OpenType) : List (NamedType × Member) :=
  (held types).filter (·.1.id = id)

/-- Of the types that have one id only the first has members. -/
def FirstHolds (types : List OpenType) : Prop :=
  types.Pairwise fun type later => type.symbol.id = later.symbol.id → later.members = []

theorem heldBy_append (id : SymbolId) (types more : List OpenType) :
    heldBy id (types ++ more) = heldBy id types ++ heldBy id more := by
  rw [heldBy, held, List.flatMap_append, List.filter_append]
  rfl

theorem heldBy_cons (id : SymbolId) (type : OpenType) (types : List OpenType) :
    heldBy id (type :: types) =
      (if type.symbol.id = id then type.members.map (type.symbol, ·) else []) ++
        heldBy id types := by
  rw [heldBy, held, List.flatMap_cons, List.filter_append]
  congr 1
  split
  · next same => simp [same]
  · next other => simp [other]

theorem heldBy_eq_nil {id : SymbolId} {types : List OpenType}
    (h : ∀ type ∈ types, type.symbol.id = id → type.members = []) : heldBy id types = [] := by
  induction types with
  | nil => rfl
  | cons type types ih =>
    obtain ⟨none, others⟩ := List.forall_mem_cons.1 h
    rw [heldBy_cons, ih others, List.append_nil]
    split
    · next same => rw [none same, List.map_nil]
    · rfl

/-! ## Adding a member -/

theorem FirstHolds.addMember {types : List OpenType} (h : FirstHolds types) (owner : NamedType)
    (member : Member) : FirstHolds (OpenFile.addMember owner member types) := by
  unfold FirstHolds at h ⊢
  obtain ⟨before, type, after, rfl, known, others, added⟩ | ⟨others, added⟩ :=
    addMember_cases owner member types
  · rw [List.pairwise_append, List.pairwise_cons] at h
    rw [added, List.pairwise_append, List.pairwise_cons]
    refine ⟨h.1, h.2.1, fun earlier he => List.forall_mem_cons.2 ⟨?_, ?_⟩⟩
    · exact fun same => absurd (same.trans known) (others earlier he)
    · exact fun later hl => h.2.2 earlier he later (List.mem_cons_of_mem _ hl)
  · rw [added, List.pairwise_append]
    refine ⟨h, List.pairwise_singleton _ _, fun earlier he => ?_⟩
    rw [List.forall_mem_singleton]
    exact fun same => absurd same (others earlier he)

/-- The owner is declared now if no type with the id has been declared. -/
theorem first?_addMember (owner : NamedType) (member : Member) (types : List OpenType)
    (id : SymbolId) :
    first? ((addMember owner member types).map (·.symbol)) id =
      first? (types.map (·.symbol) ++ [owner]) id := by
  obtain ⟨before, type, after, rfl, known, others, added⟩ | ⟨others, added⟩ :=
    addMember_cases owner member types
  · have same : (addMember owner member (before ++ type :: after)).map (·.symbol) =
        (before ++ type :: after).map (·.symbol) := by simp [added]
    rw [same, first?_append]
    by_cases hid : owner.id = id
    · have found : first? ((before ++ type :: after).map (·.symbol)) id ≠ none := by
        rw [first?, Ne, List.find?_eq_none]
        exact fun none => none type.symbol (by simp) (by simp [known, hid])
      rw [Option.or_of_isSome (Option.isSome_iff_ne_none.2 found)]
    · simp [first?, hid]
  · rw [added, List.map_append]
    rfl

/-- The member comes after those that the types with the owner's id hold already. -/
theorem heldBy_addMember {types : List OpenType} (h : FirstHolds types) (owner : NamedType)
    (member : Member) (id : SymbolId) :
    heldBy id (addMember owner member types) = heldBy id types ++
      if owner.id = id then [((first? (types.map (·.symbol)) owner.id).getD owner, member)]
      else [] := by
  obtain ⟨before, type, after, rfl, known, others, added⟩ | ⟨others, added⟩ :=
    addMember_cases owner member types
  · have first : first? ((before ++ type :: after).map (·.symbol)) owner.id =
        some type.symbol := by
      rw [first?, List.map_append, List.find?_append, List.find?_eq_none.2 (by simpa using others)]
      simp [known]
    rw [added, first, heldBy_append, heldBy_append, heldBy_cons, heldBy_cons]
    by_cases hid : owner.id = id
    -- A later type with the id has no members, so the new member is the last.
    · have nothing : heldBy id after = [] := heldBy_eq_nil fun later hl same =>
        (List.pairwise_cons.1 (List.pairwise_append.1 h).2.1).1 later hl
          (by rw [known, hid, same])
      simp [known, hid, nothing]
    · simp [known, hid]
  · have none : first? (types.map (·.symbol)) owner.id = none := by
      simpa [first?] using others
    have nothing : heldBy id [] = [] := rfl
    rw [added, none, heldBy_append, heldBy_cons, nothing, List.append_nil]
    rfl

/-! ## Open files and their ledgers -/

/-- A ledger for the declarations of a file: only the first of the types with one id has members,
and for every id the ledger has the same first symbol and the same members in the same order. -/
structure Follows (file : OpenFile) (ledger : FileLedger) : Prop where
  path : file.path = ledger.path
  firstHolds : FirstHolds file.types
  first : ∀ id, first? (file.types.map (·.symbol)) id = first? ledger.symbols id
  ids : ∀ call ∈ ledger.calls, call.declaredAs.id = call.owner.id
  heldBy : ∀ id, heldBy id file.types =
    (ledger.calls.filter (·.owner.id = id)).map fun call =>
      (call.declaredAs, .fieldDecl call.declaration)

/-- Lists are permutations of each other if the items with one key are the same, in the same
order. -/
theorem perm_of_filter_key {α κ : Type} [DecidableEq κ] (key : α → κ) {as bs : List α}
    (h : ∀ k, as.filter (key · = k) = bs.filter (key · = k)) : as.Perm bs := by
  classical
  rw [List.perm_iff_count]
  intro a
  have own (l : List α) : (l.filter (key · = key a)).count a = l.count a :=
    List.count_filter (decide_eq_true rfl)
  rw [← own as, ← own bs, h]

namespace Follows

variable {file : OpenFile} {ledger : FileLedger}

theorem empty (path : String) : Follows ⟨path, []⟩ ⟨path, [], []⟩ :=
  ⟨rfl, .nil, fun _ => rfl, nofun, fun _ => rfl⟩

theorem declare (h : file.Follows ledger) (symbol : NamedType) :
    Follows { file with types := file.types ++ [⟨symbol, []⟩] } (ledger.declare symbol) where
  path := h.path
  firstHolds := List.pairwise_append.2
    ⟨h.firstHolds, List.pairwise_singleton _ _, fun _ _ => List.forall_mem_singleton.2 fun _ => rfl⟩
  first id := by
    rw [List.map_append, first?_append, h.first, FileLedger.declare, first?_append]
    rfl
  ids := h.ids
  heldBy id := by
    rw [heldBy_append, h.heldBy, heldBy_eq_nil (by simp), List.append_nil]
    rfl

theorem addMember (h : file.Follows ledger) (call : Call)
    (declaredAs : call.declaredAs = ledger.symbolOf call.owner) :
    Follows
      { file with types := OpenFile.addMember call.owner (.fieldDecl call.declaration) file.types }
      { ledger.declare call.owner with calls := ledger.calls ++ [call] } where
  path := h.path
  firstHolds := h.firstHolds.addMember _ _
  first id := by
    rw [first?_addMember, first?_append, h.first, FileLedger.declare, first?_append]
  ids := by
    refine List.forall_mem_append.2 ⟨h.ids, List.forall_mem_singleton.2 ?_⟩
    rw [declaredAs, FileLedger.id_symbolOf]
  heldBy id := by
    rw [heldBy_addMember h.firstHolds, h.heldBy, h.first, List.filter_append, List.map_append]
    congr 1
    split
    · next same => simp [same, declaredAs, FileLedger.symbolOf]
    · next other => simp [other]

/-- The types hold what was called for. -/
theorem perm_held (h : file.Follows ledger) :
    (held file.types).Perm (ledger.calls.map fun call =>
      (call.declaredAs, .fieldDecl call.declaration)) := by
  refine perm_of_filter_key (·.1.id) fun id => ?_
  rw [List.filter_map]
  refine (h.heldBy id).trans (congrArg (List.map _) (List.filter_congr fun call hc => ?_))
  simp [h.ids call hc]

/-- The declarations in the tree of the file are those that were called for, each inside the scopes
of the symbol that was declared first. -/
theorem perm_nestedFields (h : file.Follows ledger) :
    file.file.nestedFields.Perm (ledger.calls.map fun call =>
      (call.declaredAs.scopes, call.declaration)) := by
  rw [nestedFields_file]
  refine (h.perm_held.flatMap_right _).trans ?_
  rw [List.flatMap_map, List.map_eq_flatMap]
  exact List.Perm.flatMap_left _ fun call _ => by simp [Member.nestedFields, within]

end Follows

end OpenFile

end HierarchyAccessors
