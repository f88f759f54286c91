import HierarchyAccessors.Declarations
import HierarchyAccessors.Schema
import HierarchyAccessors.Text.Blank

/-!
# Fields that carry the marker attribute

Marked fields are found in the syntax alone, so that an incomplete compilation has them too. A
declaration is found once, however many variables it has and however often it is marked.
-/

namespace HierarchyAccessors

/-- Whether the character ends a qualifier before a name. -/
def isSeparator (c : Char) : Bool :=
  c == '.' || c == ':'

/-- The text after the last separator. -/
def lastIdentifier (cs : List Char) : List Char :=
  (cs.reverse.takeWhile fun c => !isSeparator c).reverse

/-- Whether an attribute name as it is written names the marker attribute, by its full or by its
short name and with any qualifier. -/
def isMarker (written : String) : Bool :=
  let identifier := lastIdentifier (Text.trim written.toList)
  identifier == Schema.attributeName.toList || identifier == Schema.shortName.toList

/-- The first marker attribute of the declaration. -/
def FieldDeclaration.marker? (field : FieldDeclaration) : Option Attribute :=
  field.attributes.find? fun usage => isMarker usage.name

/-- A field declaration with its first marker attribute and the file that contains it. -/
structure MarkedField where
  file : SourceFile
  declaration : FieldDeclaration
  marker : Attribute

/-- The marked field declarations of a file, in source order. -/
def SourceFile.markedFields (file : SourceFile) : List MarkedField :=
  file.fields.filterMap fun field => field.marker?.map fun marker => ⟨file, field, marker⟩

/-- The marked field declarations of all files, in source order. -/
def markedFields (files : List SourceFile) : List MarkedField :=
  files.flatMap (·.markedFields)

theorem markedFields_append (files more : List SourceFile) :
    markedFields (files ++ more) = markedFields files ++ markedFields more := by
  simp [markedFields]

end HierarchyAccessors
