import TypedClient.Proofs.Log
import TypedClient.Schema.TypeText

/-!
# `TypedClient.Proofs.Schema.Template`: where references stand in a type

The names of component schemas have no part in a type but where it refers to them. So a type is a
template: pieces that depend on the schema alone, with a reference in each place that is left for a
name. Filling the places with the types that the references stand for gives the type.

* `Schema.pointers`: the references of a schema. `pointers_pieces`: they are those of its template.
* `typeText_eq_written`: a type is its template with names filled in.
* `mem_notes_noteType`: a reference to no component schema is noted.
-/

set_option autoImplicit false

namespace TypedClient

/-- A piece of a type: a text that depends on no names, or a reference. -/
inductive TypePiece where
  | text (s : String)
  | reference (pointer : String)
deriving DecidableEq

namespace TypePiece

/-- What a piece is written as, given the names of component schemas. -/
def write (names : Option TypeNames) : TypePiece → String
  | text s => s
  | reference pointer => referenceType names pointer

/-- Pieces with names filled in. -/
def written (names : Option TypeNames) (pieces : List TypePiece) : String :=
  String.join (pieces.map (write names))

/-- The reference that a piece is. -/
def pointer? : TypePiece → Option String
  | text _ => none
  | reference pointer => some pointer

/-- A text is no reference. -/
@[simp] theorem pointer?_text (s : String) : (text s).pointer? = none := rfl

variable {names : Option TypeNames} {ps qs : List TypePiece} {s : String}

/-- No pieces are written as nothing. -/
@[simp] theorem written_nil : written names [] = "" := rfl

/-- A text is written as it is, whatever the names are. -/
@[simp] theorem written_text_cons : written names (.text s :: ps) = s ++ written names ps := by
  simp [written, write, String.join_cons]

/-- Pieces in a row are written one after the other. -/
@[simp] theorem written_append :
    written names (ps ++ qs) = written names ps ++ written names qs := by
  simp [written, String.join_append]

/-- Pieces with a text between them are written with that text between them. This is what makes the
lines of a record a matter of their own pieces. -/
theorem written_intercalate (pss : List (List TypePiece)) :
    written names ([.text s].intercalate pss) = s.intercalate (pss.map (written names)) := by
  induction pss with
  | nil => rfl
  | cons ps rest ih =>
    cases rest with
    | nil => simp
    | cons qs rest =>
      rw [List.intercalate_cons_cons, written_append, written_append, ih, List.map_cons,
        List.map_cons, List.map_cons, String.intercalate_cons_cons]
      simp

end TypePiece

mutual

/-- The references of a schema, in order. -/
def Schema.pointers : Schema → List String
  | .array items _ => items.pointers
  | .record fields _ _ => fields.pointers
  | .reference pointer _ => [pointer]
  | .primitive _ _ _ _ | .anyArray _ | .anyRecord _ _ | .unknown _ => []

/-- The references of the properties, in order. -/
def Fields.pointers : Fields → List String
  | .nil => []
  | .cons _ schema rest => schema.pointers ++ rest.pointers

end

mutual

/-- The template of the type of a schema, at a depth. -/
def Schema.pieces : Schema → (depth : Int) → List TypePiece
  | .array items _, depth => [.text "Array<"] ++ items.pieces depth ++ [.text ">"]
  | .record fields required _, depth =>
    if fields.isEmpty then [.text openRecordType]
    else [.text "\x7b\n"] ++ [.text "\n"].intercalate (fields.pieces required (depth + 1)) ++
      [.text ("\n" ++ indentation depth ++ "\x7d")]
  | .reference pointer _, _ => [.reference pointer]
  | .primitive type format members description, depth =>
    [.text (typeText none (.primitive type format members description) depth)]
  | .anyArray _, _ => [.text (unknownType ++ "[]")]
  | .anyRecord _ _, _ => [.text openRecordType]
  | .unknown _, _ => [.text unknownType]

/-- The templates of the lines of properties, at a depth. -/
def Fields.pieces (required : List String) : Fields → (depth : Int) → List (List TypePiece)
  | .nil, _ => []
  | .cons name schema rest, depth =>
    ([.text (indentation depth ++ propertyKey name ++
        (if required.contains name then "" else "?") ++ ": ")] ++ schema.pieces depth ++
      [.text ";"]) :: rest.pieces required depth

end

mutual

/-- A type is its template with names filled in, at any depth. So two tables of names give types
that differ only where the schema has references. -/
theorem typeText_eq_written (names : Option TypeNames) (schema : Schema) (depth : Int) :
    typeText names schema depth = TypePiece.written names (schema.pieces depth) := by
  cases schema with
  | primitive type format members description => simp [Schema.pieces, typeText]
  | array items description =>
    simp [Schema.pieces, typeText, typeText_eq_written names items depth, String.append_assoc]
  | anyArray description => simp [Schema.pieces, typeText]
  | record fields required description =>
    rw [Schema.pieces, typeText]
    split
    · simp
    · -- Lines are joined with texts, so filling in the names may go inside.
      rw [fieldLines_eq_written names required fields (depth + 1), recordText,
        TypePiece.written_append, TypePiece.written_append, TypePiece.written_intercalate]
      simp [String.append_assoc]
  | anyRecord required description => simp [Schema.pieces, typeText]
  | reference pointer description =>
    simp [Schema.pieces, typeText, TypePiece.written, TypePiece.write]
  | unknown description => simp [Schema.pieces, typeText]

/-- The lines of properties are their templates with names filled in. -/
theorem fieldLines_eq_written (names : Option TypeNames) (required : List String) (fields : Fields)
    (depth : Int) : fieldLines names required fields depth
      = (fields.pieces required depth).map (TypePiece.written names) := by
  cases fields with
  | nil => rfl
  | cons name schema rest =>
    rw [fieldLines, Fields.pieces, List.map_cons, fieldLines_eq_written names required rest depth,
      typeText_eq_written names schema depth]
    simp [String.append_assoc]

end

/-- A text between pieces adds no reference to them. -/
theorem filterMap_intercalate_text (s : String) (pss : List (List TypePiece)) :
    ([TypePiece.text s].intercalate pss).filterMap TypePiece.pointer?
      = pss.flatMap (List.filterMap TypePiece.pointer?) := by
  induction pss with
  | nil => rfl
  | cons ps rest ih =>
    cases rest with
    | nil => simp
    | cons qs rest =>
      rw [List.intercalate_cons_cons, List.filterMap_append, List.filterMap_append, ih]
      simp

mutual

/-- The template has a place for each reference of the schema, and no others: they come in the same
order and as often. -/
theorem pointers_pieces (schema : Schema) (depth : Int) :
    (schema.pieces depth).filterMap TypePiece.pointer? = schema.pointers := by
  cases schema with
  | array items description =>
    simp [Schema.pieces, Schema.pointers, List.filterMap_cons, pointers_pieces items depth]
  | record fields required description =>
    rw [Schema.pieces, Schema.pointers]
    split
    · -- An open record has no properties, and so no references.
      rename_i hempty
      cases fields with
      | nil => rfl
      | cons name schema rest => cases hempty
    · rw [List.filterMap_append, List.filterMap_append, filterMap_intercalate_text,
        pointers_linePieces required fields (depth + 1)]
      simp [List.filterMap_cons]
  | primitive | anyArray | anyRecord | reference | unknown => rfl

/-- The templates of lines have a place for each reference of the properties, and no others. -/
theorem pointers_linePieces (required : List String) (fields : Fields) (depth : Int) :
    (fields.pieces required depth).flatMap (List.filterMap TypePiece.pointer?)
      = fields.pointers := by
  cases fields with
  | nil => rfl
  | cons name schema rest =>
    rw [Fields.pieces, Fields.pointers, List.flatMap_cons, pointers_linePieces required rest depth]
    simp [List.filterMap_cons, pointers_pieces schema depth]

end

/-! ### Notes -/

/-- The name of a component schema that the document lacks. -/
def Dangling (table : TypeNames) (pointer : String) : Prop :=
  Schema.pointerName pointer ≠ "" ∧ table.lookup (Schema.pointerName pointer) = none

mutual

/-- A reference that a type cannot follow is noted while the type is written, by the pointer as the
schema has it. The note also says where: at the innermost property around the reference, or else at
the place that the type is for. -/
theorem mem_notes_noteType {table : TypeNames} {pointer : String} (h : Dangling table pointer)
    (schema : Schema) (hint : Option String)
    (hok : (noteType (some table) hint schema).outcome = .ok ()) (hp : pointer ∈ schema.pointers) :
    ∃ place, ⟨.warning, .schema, "Unresolved reference " ++ pointer ++ " in " ++ place⟩ ∈
      (noteType (some table) hint schema).notes := by
  cases schema with
  | primitive | anyArray | anyRecord | unknown => cases hp
  | array items description => exact mem_notes_noteType h items hint hok hp
  | record fields required description => exact mem_notes_noteFields h fields hok hp
  | reference pointer' description =>
    obtain rfl := List.mem_singleton.mp hp
    refine ⟨placeName hint, ?_⟩
    simp [noteType, h.1, h.2, Logged.note]

/-- A reference in a property is noted along with those of the other properties. -/
theorem mem_notes_noteFields {table : TypeNames} {pointer : String} (h : Dangling table pointer)
    (fields : Fields) (hok : (noteFields (some table) fields).outcome = .ok ())
    (hp : pointer ∈ fields.pointers) :
    ∃ place, ⟨.warning, .schema, "Unresolved reference " ++ pointer ++ " in " ++ place⟩ ∈
      (noteFields (some table) fields).notes := by
  cases fields with
  | nil => cases hp
  | cons name schema rest =>
    obtain ⟨⟨⟩, hschema, hrest⟩ := Logged.bind_ok_iff.mp hok
    rw [noteFields, Logged.notes_bind_ok hschema]
    -- Notes add up only as long as nothing fails, hence the hypothesis on the outcome.
    rcases List.mem_append.mp hp with hp | hp
    · obtain ⟨place, hplace⟩ := mem_notes_noteType h schema (some name) hschema hp
      exact ⟨place, List.mem_append_left _ hplace⟩
    · obtain ⟨place, hplace⟩ := mem_notes_noteFields h rest hrest hp
      exact ⟨place, List.mem_append_right _ hplace⟩

end

end TypedClient
