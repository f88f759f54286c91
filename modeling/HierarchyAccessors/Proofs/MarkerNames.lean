import HierarchyAccessors.Marker
import HierarchyAccessors.Proofs.Trimming

/-!
# Which names are the marker's

The name of an attribute is trimmed, and only what stands behind the last separator counts.

**Theorem (`isMarker_by_parts`).** A name is the marker's just if, without the white space around
it, it is a qualifier followed by one of the marker's two names. So a further qualifier changes
nothing, while white space before the identifier and one more character at either end of it do.

The name is taken apart in two steps. Trimming stops at the separator that ends a qualifier
(`Text.trim_append`), and the last identifier is the same with the qualifier and without it
(`lastIdentifier_append`). What is left is to compare identifiers, which hold no separator.
-/

namespace HierarchyAccessors

/-! ## The last identifier -/

/-- The text ends in one of the two characters that separate a qualifier from a name. -/
def EndsInSeparator (text : String) : Prop :=
  ∃ start, text = start ++ "." ∨ text = start ++ ":"

/-- What may stand before a name. -/
def IsQualifier (text : String) : Prop :=
  text = "" ∨ EndsInSeparator text

theorem EndsInSeparator.exists_toList {text : String} (h : EndsInSeparator text) :
    ∃ start c, text.toList = start ++ [c] ∧ isSeparator c = true := by
  obtain ⟨start, rfl | rfl⟩ := h
  · exact ⟨start.toList, '.', by simp, rfl⟩
  · exact ⟨start.toList, ':', by simp, rfl⟩

theorem endsInSeparator_of_append {start : List Char} {c : Char} (h : isSeparator c = true) :
    EndsInSeparator (String.ofList (start ++ [c])) := by
  simp only [isSeparator, Bool.or_eq_true, beq_iff_eq] at h
  refine ⟨String.ofList start, ?_⟩
  rcases h with rfl | rfl
  · exact .inl (by simp)
  · exact .inr (by simp)

/-- A text has no separator, or it is split at its last one. -/
theorem separator_cases (cs : List Char) :
    (∀ c ∈ cs, isSeparator c = false) ∨
      ∃ start c later, cs = start ++ c :: later ∧ isSeparator c = true ∧
        ∀ d ∈ later, isSeparator d = false := by
  induction cs with
  | nil => exact .inl (by simp)
  | cons first cs ih =>
    obtain none | ⟨start, c, later, rfl, separator, none⟩ := ih
    · cases h : isSeparator first with
      | true => exact .inr ⟨[], first, cs, rfl, h, none⟩
      | false => exact .inl (List.forall_mem_cons.2 ⟨h, none⟩)
    · exact .inr ⟨first :: start, c, later, rfl, separator, none⟩

theorem lastIdentifier_eq_self {cs : List Char} (none : ∀ c ∈ cs, isSeparator c = false) :
    lastIdentifier cs = cs := by
  have all : ∀ c ∈ cs.reverse, (!isSeparator c) = true := by simpa using none
  rw [lastIdentifier, ← List.append_nil cs.reverse, List.takeWhile_append_of_pos all,
    List.takeWhile_nil, List.append_nil, List.reverse_reverse]

theorem lastIdentifier_of_split {start later : List Char} {c : Char} (h : isSeparator c = true)
    (none : ∀ d ∈ later, isSeparator d = false) : lastIdentifier (start ++ c :: later) = later := by
  have all : ∀ d ∈ later.reverse, (!isSeparator d) = true := by simpa using none
  rw [lastIdentifier, List.reverse_append, List.reverse_cons, List.append_assoc,
    List.takeWhile_append_of_pos all, List.singleton_append,
    List.takeWhile_cons_of_neg (by simp [h]), List.append_nil, List.reverse_reverse]

/-- What stands before a separator does not count. -/
theorem lastIdentifier_append {start cs : List Char} {c : Char} (h : isSeparator c = true) :
    lastIdentifier (start ++ c :: cs) = lastIdentifier cs := by
  obtain none | ⟨start', d, later, rfl, separator, none⟩ := separator_cases cs
  · rw [lastIdentifier_of_split h none, lastIdentifier_eq_self none]
  · rw [← List.cons_append, ← List.append_assoc, lastIdentifier_of_split separator none,
      lastIdentifier_of_split separator none]

/-- A text is a qualifier and its last identifier. -/
theorem exists_qualifier (cs : List Char) :
    ∃ qualifier, IsQualifier (String.ofList qualifier) ∧ cs = qualifier ++ lastIdentifier cs := by
  obtain none | ⟨start, c, later, rfl, separator, none⟩ := separator_cases cs
  · exact ⟨[], .inl rfl, by rw [lastIdentifier_eq_self none, List.nil_append]⟩
  · refine ⟨start ++ [c], .inr (endsInSeparator_of_append separator), ?_⟩
    rw [lastIdentifier_of_split separator none, List.append_assoc, List.singleton_append]

/-! ## The names of the marker -/

/-- The two names of the marker. -/
def IsMarkerName (text : String) : Prop :=
  text = "FromHierarchy" ∨ text = "FromHierarchyAttribute"

/-- The text is one identifier: it holds no separator, and no white space stands at its ends. -/
structure IsIdentifier (text : String) : Prop where
  tight : Text.Tight text
  whole : ∀ c ∈ text.toList, isSeparator c = false

instance (text : String) : Decidable (IsIdentifier text) :=
  decidable_of_iff (Text.Tight text ∧ text.toList.all (!isSeparator ·) = true)
    (by simpa using ⟨fun h => ⟨h.1, h.2⟩, fun h => ⟨h.tight, h.whole⟩⟩)

theorem IsMarkerName.isIdentifier {name : String} (h : IsMarkerName name) : IsIdentifier name := by
  rcases h with rfl | rfl <;> decide

theorem isMarker_iff_lastIdentifier {written : String} : isMarker written = true ↔
    IsMarkerName (String.ofList (lastIdentifier (Text.trim written.toList))) := by
  simp only [isMarker, Bool.or_eq_true, beq_iff_eq, IsMarkerName, ← String.toList_inj,
    String.toList_ofList]
  exact or_comm

theorem lastIdentifier_of_isQualifier {qualifier identifier : String} (h : IsQualifier qualifier)
    (whole : ∀ c ∈ identifier.toList, isSeparator c = false) :
    lastIdentifier (qualifier ++ identifier).toList = identifier.toList := by
  rw [String.toList_append]
  rcases h with rfl | h
  · exact lastIdentifier_eq_self whole
  · obtain ⟨start, c, chars, separator⟩ := h.exists_toList
    rw [chars, List.append_assoc, List.singleton_append, lastIdentifier_of_split separator whole]

theorem isMarker_iff_trimmed {written : String} : isMarker written = true ↔
    ∃ qualifier name, Text.Trimmed written (qualifier ++ name) ∧ IsQualifier qualifier ∧
      IsMarkerName name := by
  rw [isMarker_iff_lastIdentifier]
  constructor
  · intro named
    obtain ⟨qualifier, isQualifier, parts⟩ := exists_qualifier (Text.trim written.toList)
    refine ⟨_, _, ?_, isQualifier, named⟩
    rw [← String.ofList_append, ← parts]
    exact Text.trimmed_trim written
  · rintro ⟨qualifier, name, trimmed, isQualifier, named⟩
    rwa [Text.trim_eq_of_trimmed trimmed, lastIdentifier_of_isQualifier isQualifier
      named.isIdentifier.whole, String.ofList_toList]

theorem isBlank_eq_false_of_isSeparator {c : Char} (h : isSeparator c = true) :
    Text.isBlank c = false := by
  simp only [isSeparator, Bool.or_eq_true, beq_iff_eq] at h
  rcases h with rfl | rfl <;> decide

/-- Behind a qualifier white space is trimmed only at the end. -/
theorem isMarker_append_iff {qualifier written : String} (h : EndsInSeparator qualifier) :
    isMarker (qualifier ++ written) = true ↔
      IsMarkerName (String.ofList (lastIdentifier (Text.trimEnd written.toList))) := by
  obtain ⟨start, c, chars, separator⟩ := h.exists_toList
  obtain ⟨left, trimmed⟩ :=
    Text.trim_append (isBlank_eq_false_of_isSeparator separator)
  rw [isMarker_iff_lastIdentifier, String.toList_append, chars, List.append_assoc,
    List.singleton_append, trimmed, lastIdentifier_append separator]

/-- An identifier alone decides, whatever stands around it. -/
theorem isMarker_identifier_iff {front qualifier identifier back : String}
    (blankFront : Text.AllBlank front) (isQualifier : IsQualifier qualifier)
    (h : IsIdentifier identifier) (blankBack : Text.AllBlank back) :
    isMarker (front ++ qualifier ++ identifier ++ back) = true ↔ IsMarkerName identifier := by
  rcases isQualifier with rfl | ends
  · have trimmed : Text.Trimmed (front ++ "" ++ identifier ++ back) identifier :=
      ⟨⟨front, back, blankFront, blankBack, by rw [String.append_empty]⟩, h.tight⟩
    rw [isMarker_iff_lastIdentifier, Text.trim_eq_of_trimmed trimmed,
      lastIdentifier_eq_self h.whole, String.ofList_toList]
  · have longer : EndsInSeparator (front ++ qualifier) := by
      obtain ⟨start, rfl | rfl⟩ := ends
      · exact ⟨front ++ start, .inl (String.append_assoc ..).symm⟩
      · exact ⟨front ++ start, .inr (String.append_assoc ..).symm⟩
    rw [String.append_assoc, isMarker_append_iff longer, String.toList_append,
      Text.trimEnd_append_of_blank blankBack, Text.trimEnd_eq_self h.tight.last,
      lastIdentifier_eq_self h.whole, String.ofList_toList]

/-! ## What is not a name of the marker -/

/-- The names start with a letter. -/
theorem IsMarkerName.head?_eq {name : String} (h : IsMarkerName name) :
    name.toList.head? = some 'F' := by
  rcases h with rfl | rfl <;> decide

theorem IsMarkerName.length_eq {name : String} (h : IsMarkerName name) :
    name.toList.length = 13 ∨ name.toList.length = 22 := by
  rcases h with rfl | rfl <;> decide

/-- No name is one character longer than another. -/
theorem not_isMarkerName_of_length {name longer : String} (h : IsMarkerName name)
    (length : longer.toList.length = name.toList.length + 1) : ¬IsMarkerName longer := by
  intro named
  have short := h.length_eq
  have long := named.length_eq
  omega

/-- Gluing identifiers together gives an identifier. -/
theorem IsIdentifier.append {a b : String} (h : IsIdentifier a) (h' : IsIdentifier b) :
    IsIdentifier (a ++ b) := by
  refine ⟨⟨fun c first => ?_, fun c last => ?_⟩, fun c mem => ?_⟩
  · rw [String.toList_append, List.head?_append] at first
    rcases Option.or_eq_some_iff.1 first with first | ⟨-, first⟩
    · exact h.tight.first c first
    · exact h'.tight.first c first
  · rw [String.toList_append, List.getLast?_append] at last
    rcases Option.or_eq_some_iff.1 last with last | ⟨-, last⟩
    · exact h'.tight.last c last
    · exact h.tight.last c last
  · rw [String.toList_append] at mem
    rcases List.mem_append.1 mem with mem | mem
    · exact h.whole c mem
    · exact h'.whole c mem

theorem isIdentifier_singleton {c : Char} (blank : Text.isBlank c = false) (dot : c ≠ '.')
    (colon : c ≠ ':') : IsIdentifier (String.singleton c) :=
  ⟨⟨by simp [blank], by simp [blank]⟩, by simp [isSeparator, dot, colon]⟩

/-- White space between a qualifier and an identifier stays, and no name starts with it. -/
theorem not_isMarker_of_blank {qualifier blank identifier : String} (h : EndsInSeparator qualifier)
    (allBlank : Text.AllBlank blank) (some : blank ≠ "")
    (whole : ∀ c ∈ identifier.toList, isSeparator c = false) :
    ¬isMarker (qualifier ++ (blank ++ identifier)) = true := by
  rw [isMarker_append_iff h, String.toList_append]
  intro named
  obtain ⟨back, -, parts⟩ := Text.exists_eq_trimEnd_append (blank.toList ++ identifier.toList)
  have single : ∀ c ∈ Text.trimEnd (blank.toList ++ identifier.toList), isSeparator c = false := by
    intro c mem
    have written : c ∈ blank.toList ++ identifier.toList := by
      rw [parts]
      exact List.mem_append_left back mem
    rcases List.mem_append.1 written with mem | mem
    · rw [← Bool.not_eq_true]
      intro separator
      exact absurd (allBlank c mem) (by simp [isBlank_eq_false_of_isSeparator separator])
    · exact whole c mem
  rw [lastIdentifier_eq_self single] at named
  obtain ⟨rest, chars⟩ := List.head?_eq_some_iff.1 named.head?_eq
  rw [String.toList_ofList] at chars
  rw [chars] at parts
  cases first : blank.toList with
  | nil => exact some (String.toList_eq_nil_iff.1 first)
  | cons d ds =>
    rw [first, List.cons_append, List.cons_append, List.cons.injEq] at parts
    have blankF := allBlank d (by simp [first])
    rw [parts.1] at blankF
    exact absurd blankF (by decide)

/-- **The names of the marker.** Without the white space around it, a name of the marker is a
qualifier, which is empty or ends in a separator, and one of two identifiers. So in front of a name
that starts with no white space a qualifier changes nothing; white space between a qualifier and an
identifier is not trimmed, and no identifier has it; and with one more character, before or behind,
neither of the two identifiers is one of them. -/
theorem isMarker_by_parts :
    (∀ written, isMarker written = true ↔
      ∃ qualifier name, Text.Trimmed written (qualifier ++ name) ∧ IsQualifier qualifier ∧
        IsMarkerName name) ∧
    (∀ qualifier written, EndsInSeparator qualifier →
      (∀ c ∈ written.toList.head?, Text.isBlank c = false) →
        isMarker (qualifier ++ written) = isMarker written) ∧
    (∀ qualifier blank identifier, EndsInSeparator qualifier → Text.AllBlank blank → blank ≠ "" →
      '.' ∉ identifier.toList → ':' ∉ identifier.toList →
        isMarker (qualifier ++ (blank ++ identifier)) = false) ∧
    ∀ front qualifier name back c, Text.AllBlank front → IsQualifier qualifier →
      IsMarkerName name → Text.AllBlank back → Text.isBlank c = false → c ≠ '.' → c ≠ ':' →
        isMarker (front ++ qualifier ++ name ++ back) = true ∧
        isMarker (front ++ qualifier ++ (String.singleton c ++ name) ++ back) = false ∧
        isMarker (front ++ qualifier ++ (name ++ String.singleton c) ++ back) = false := by
  refine ⟨fun written => isMarker_iff_trimmed, ?_, ?_, ?_⟩
  · intro qualifier written ends first
    rw [Bool.eq_iff_iff, isMarker_append_iff ends, isMarker_iff_lastIdentifier, Text.trim,
      Text.trimStart_eq_self first]
  · intro qualifier blank identifier ends allBlank some dot colon
    rw [← Bool.not_eq_true]
    refine not_isMarker_of_blank ends allBlank some fun c mem => ?_
    simp only [isSeparator, Bool.or_eq_false_iff, beq_eq_false_iff_ne]
    exact ⟨ne_of_mem_of_not_mem mem dot, ne_of_mem_of_not_mem mem colon⟩
  · intro front qualifier name back c blankFront isQualifier named blankBack blank dot colon
    have glued := isIdentifier_singleton blank dot colon
    refine ⟨?_, ?_, ?_⟩
    · exact (isMarker_identifier_iff blankFront isQualifier named.isIdentifier blankBack).2 named
    · rw [← Bool.not_eq_true, isMarker_identifier_iff blankFront isQualifier
        (glued.append named.isIdentifier) blankBack]
      exact not_isMarkerName_of_length named (by simp [Nat.add_comm])
    · rw [← Bool.not_eq_true, isMarker_identifier_iff blankFront isQualifier
        (named.isIdentifier.append glued) blankBack]
      exact not_isMarkerName_of_length named (by simp)

/-- Separators may be doubled, and white space need not be ASCII. Where it stands behind a
qualifier, a line feed is enough to spoil the name. -/
theorem isMarker_by_parts_of_global :
    isMarker "\u2003global::.FromHierarchy\n" = true ∧
      isMarker ("A:" ++ "B.FromHierarchyAttribute ") = isMarker "B.FromHierarchyAttribute " ∧
      isMarker ("A." ++ ("\n" ++ "FromHierarchy")) = false ∧
      isMarker (" " ++ "A." ++ (String.singleton '_' ++ "FromHierarchy") ++ " ") = false := by
  obtain ⟨parts, qualified, spaced, glued⟩ := isMarker_by_parts
  refine ⟨?_, ?_, ?_, ?_⟩
  · have trimmed : Text.Trimmed "\u2003global::.FromHierarchy\n" ("global::." ++ "FromHierarchy") :=
      ⟨⟨"\u2003", "\n", by decide, by decide, by decide⟩, by decide⟩
    exact (parts _).2 ⟨"global::.", "FromHierarchy", trimmed, .inr ⟨"global::", .inl (by decide)⟩,
      .inl rfl⟩
  · have start : "B.FromHierarchyAttribute ".toList.head? = some 'B' := by decide
    refine qualified "A:" "B.FromHierarchyAttribute " ⟨"A", .inr (by decide)⟩ fun c first => ?_
    rw [start] at first
    cases first
    decide
  · exact spaced "A." "\n" "FromHierarchy" ⟨"A", .inl (by decide)⟩ (by decide) (by decide)
      (by decide) (by decide)
  · exact (glued " " "A." "FromHierarchy" " " '_' (by decide) (.inr ⟨"A", .inl (by decide)⟩)
      (.inl rfl) (by decide) (by decide) (by decide) (by decide)).2.1

end HierarchyAccessors
