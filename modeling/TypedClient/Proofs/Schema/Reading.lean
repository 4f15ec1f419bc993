import TypedClient.Proofs.Assoc
import TypedClient.Proofs.Value.Text
import TypedClient.Schema.Reading
import TypedClient.Schema.TypeText

/-!
# `TypedClient.Proofs.Schema.Reading`: why a schema is not read, and not written

Reading a schema fails in a way that is foreseen, or because the graph holds an integer
that is too long. In a graph without such integers the schema that is read has none among
the members of its enumerations, so that its type can be written.

* `Graph.Refuses`: how reading values and schemas out of a graph can fail.
* `Schema.of_read_eq_error`, `Schema.writable_of_read`: what reading a schema comes to.
* `of_noteType_eq_error`, `outcome_noteType_eq_ok_iff`: only a schema with an integer that is too
  long is not written.
-/

set_option autoImplicit false

namespace TypedClient

mutual

/-- Every integer in the enumerations of the schema is short enough to be written. -/
def Schema.Writable : Schema → Prop
  | .primitive _ _ members _ => (members.getD []).all Value.fits = true
  | .array items _ => items.Writable
  | .record fields _ _ => fields.Writable
  | .anyArray _ | .anyRecord _ _ | .reference _ _ | .unknown _ => True

/-- Every schema of the properties is writable. -/
def Fields.Writable : Fields → Prop
  | .nil => True
  | .cons _ schema rest => schema.Writable ∧ rest.Writable

end

/-- Properties that are made of a list are writable if the schemas in the list are. -/
theorem Fields.writable_ofList {fields : List (String × Schema)}
    (h : ∀ p ∈ fields, p.2.Writable) : (Fields.ofList fields).Writable := by
  induction fields with
  | nil => trivial
  | cons p rest ih =>
    obtain ⟨hp, hrest⟩ := List.forall_mem_cons.mp h
    exact ⟨hp, ih hrest⟩

/-! ### Writing -/

mutual

/-- Only an integer that is too long keeps the type of a schema from being written. What a schema
refers to does not matter for this: a reference to a schema that is missing is noted, and that is no
failure. -/
theorem of_noteType_eq_error {names : Option TypeNames} {hint : Option String} {f : Failure}
    (schema : Schema) (h : (noteType names hint schema).outcome = .error f) :
    f = .defect .integerTooLong ∧ ¬ schema.Writable := by
  cases schema with
  | primitive type format members description =>
    simp only [noteType] at h
    split at h
    · cases h
    · rename_i hfits
      cases h
      exact ⟨rfl, hfits⟩
  | array items description => exact of_noteType_eq_error items h
  | record fields required description => exact of_noteFields_eq_error fields h
  | reference pointer description =>
    simp only [noteType] at h
    split at h <;> cases h
  | unknown description => cases h
  | anyArray description => cases h
  | anyRecord required description => cases h

/-- Of the properties of a record, too, only such an integer keeps one from being written. -/
theorem of_noteFields_eq_error {names : Option TypeNames} {f : Failure} (fields : Fields)
    (h : (noteFields names fields).outcome = .error f) :
    f = .defect .integerTooLong ∧ ¬ fields.Writable := by
  cases fields with
  | nil => cases h
  | cons name schema rest =>
    rcases Logged.bind_error_iff.mp h with h | ⟨_, -, h⟩
    · obtain ⟨hf, hschema⟩ := of_noteType_eq_error schema h
      exact ⟨hf, fun hw => hschema hw.1⟩
    · obtain ⟨hf, hrest⟩ := of_noteFields_eq_error rest h
      exact ⟨hf, fun hw => hrest hw.2⟩

end

mutual

/-- Where a type is written, no integer is too long. The converse is `of_noteType_eq_error`, and
`outcome_noteType_eq_ok_iff` puts the two together. -/
theorem Schema.writable_of_noteType {names : Option TypeNames} {hint : Option String}
    (schema : Schema) (h : (noteType names hint schema).outcome = .ok ()) : schema.Writable := by
  cases schema with
  | primitive type format members description =>
    simp only [noteType] at h
    split at h
    · rename_i hfits
      exact hfits
    · cases h
  | array items description => exact Schema.writable_of_noteType items h
  | record fields required description => exact Fields.writable_of_noteFields fields h
  | reference | unknown | anyArray | anyRecord => trivial

/-- Where the types of all properties are written, no integer in any of them is too long. -/
theorem Fields.writable_of_noteFields {names : Option TypeNames} (fields : Fields)
    (h : (noteFields names fields).outcome = .ok ()) : fields.Writable := by
  cases fields with
  | nil => trivial
  | cons name schema rest =>
    obtain ⟨⟨⟩, hschema, hrest⟩ := Logged.bind_ok_iff.mp h
    exact ⟨Schema.writable_of_noteType schema hschema, Fields.writable_of_noteFields rest hrest⟩

end

/-- A type is written exactly if no integer in the schema is too long. Neither the names of
component schemas nor the place that the type is for have a part in this, so it can be asked of a
schema by itself. -/
theorem outcome_noteType_eq_ok_iff {names : Option TypeNames} {hint : Option String}
    {schema : Schema} : (noteType names hint schema).outcome = .ok () ↔ schema.Writable := by
  refine ⟨schema.writable_of_noteType, fun hw => ?_⟩
  cases h : (noteType names hint schema).outcome with
  | ok u => rfl
  | error f => exact absurd hw (of_noteType_eq_error schema h).2

/-! ### Reading -/

/-- How reading out of a graph fails: a node has no reading as a schema, or the graph holds
an integer that is too long. -/
inductive Graph.Refuses (g : Graph) : Failure → Prop
  | schema (e : SchemaError) : g.Refuses (.schema e)
  | integer (h : ¬ g.Writable) : g.Refuses (.defect .integerTooLong)

variable {g : Graph} {v : Value} {f : Failure}

/-- A value that is short itself has a text unless the graph refuses. The condition is only asked of
graphs whose integers are all short, since in any other one there is a reason to refuse. -/
theorem Graph.refuses_of_text (hv : g.Writable → v.fits = true) (h : g.text v = .error f) :
    g.Refuses f := by
  obtain ⟨rfl, hlong⟩ := of_text_eq_error h
  exact .integer fun hg => hlong ⟨hg, hv hg⟩

/-- A value that is short itself can be shown in a message unless the graph refuses. -/
theorem Graph.refuses_of_shown (hv : g.Writable → v.fits = true) (h : g.shown v = .error f) :
    g.Refuses f := by
  obtain ⟨rfl, hlong⟩ := of_shownWithin_eq_error h
  exact .integer fun hg => hlong ⟨hg, hv hg⟩

namespace Schema

variable {entries : List (Value × Value)}

/-- The names of required properties cannot be read only where the graph refuses: each is the text
of an item. -/
theorem of_requiredNames_eq_error (h : requiredNames g entries = .error f) : g.Refuses f := by
  unfold requiredNames at h
  split at h
  · rename_i items hitems
    obtain ⟨i, hi, h⟩ := exists_of_mapM_eq_error (bind_pure_eq_error_iff.mp h)
    exact Graph.refuses_of_text (fun hg => hg.of_items? hitems i hi) h
  · cases h

/-- Reading a schema fails only as the graph refuses, whatever nodes the reading is inside of and
however much of its count is left. Running out of the count is reported like a node inside itself;
that it never happens is shown in the next module, `Schema.readWithin_eq_of_passed`. -/
theorem of_readWithin_eq_error {fuel : Nat} {outer : List Nat}
    (h : readWithin g fuel outer v = .error f) : g.Refuses f := by
  induction fuel generalizing outer v f with
  | zero =>
    cases h
    exact .schema _
  | succ fuel ih =>
    unfold readWithin at h
    split at h
    · rename_i _ _ id entries hentries
      have hheld : ∀ {key : String}, g.Writable → (lookupOrNull entries key).fits = true :=
        fun hg => Graph.fits_lookupOrNull (hg.of_entries? hentries)
      split at h
      · cases h
        exact .schema _
      · -- One case for each set of tags: none, a reference, a scalar, an array, an object.
        dsimp only at h
        split at h
        · cases h
        · exact Graph.refuses_of_text hheld (bind_pure_eq_error_iff.mp h)
        · cases h
        · split at h
          · exact ih (bind_pure_eq_error_iff.mp h)
          · cases h
        · split at h
          · -- The names of properties come first, with their schemas, and then the required names.
            rename_i properties hproperties
            -- Several tags are refused, and the message shows the node.
            rcases bind_eq_error_iff.mp h with h | ⟨_, -, h⟩
            · obtain ⟨e, he, h⟩ := exists_of_mapM_eq_error h
              rcases bind_eq_error_iff.mp h with h | ⟨_, -, h⟩
              · exact Graph.refuses_of_text (fun hg => (hg.of_entries? hproperties e he).1) h
              · exact ih (bind_pure_eq_error_iff.mp h)
            · exact of_requiredNames_eq_error (bind_pure_eq_error_iff.mp h)
          · exact of_requiredNames_eq_error (bind_pure_eq_error_iff.mp h)
        · rcases bind_eq_error_iff.mp h with h | ⟨_, -, h⟩
          · exact Graph.refuses_of_shown (fun _ => rfl) h
          · cases h
            exact .schema _
    · cases h

/-- A schema that is read out of a graph without long integers can be written, whatever nodes the
reading is inside of. -/
theorem writable_of_readWithin (hg : g.Writable) {fuel : Nat} {outer : List Nat} {schema : Schema}
    (h : readWithin g fuel outer v = .ok schema) : schema.Writable := by
  induction fuel generalizing outer v schema with
  | zero => cases h
  | succ fuel ih =>
    unfold readWithin at h
    split at h
    · rename_i _ _ id entries _
      split at h
      · cases h
      · -- The same cases. Only a scalar has an enumeration, whose members the graph holds.
        dsimp only at h
        split at h
        · cases h
          trivial
        · obtain ⟨_, -, h⟩ := bind_eq_ok_iff.mp h
          cases h
          trivial
        · cases h
          rw [Writable, List.all_eq_true]
          cases hitems : g.items? (lookupOrNull entries "enum") with
          | none => exact fun _ hi => nomatch hi
          | some items => exact hg.of_items? hitems
        · split at h
          · obtain ⟨items, hitems, h⟩ := bind_eq_ok_iff.mp h
            cases h
            show items.Writable
            exact ih hitems
          · cases h
            trivial
        · split at h
          · obtain ⟨fields, hfields, h⟩ := bind_eq_ok_iff.mp h
            obtain ⟨_, -, h⟩ := bind_eq_ok_iff.mp h
            cases h
            -- A property that is given twice has its last schema, which is one of those that were
            -- read.
            refine Fields.writable_ofList fun p hp => ?_
            obtain ⟨e, -, he⟩ := exists_of_mem_of_mapM_eq_ok hfields (Assoc.mem_of_mem_ofList hp)
            obtain ⟨_, -, he⟩ := bind_eq_ok_iff.mp he
            obtain ⟨_, hschema, he⟩ := bind_eq_ok_iff.mp he
            cases he
            exact ih hschema
          · obtain ⟨_, -, h⟩ := bind_eq_ok_iff.mp h
            cases h
            trivial
        · obtain ⟨_, -, h⟩ := bind_eq_ok_iff.mp h
          cases h
    · cases h
      trivial

/-- Reading a schema fails only as the graph refuses: a node has no reading as a schema, or an
integer is too long to be written. -/
theorem of_read_eq_error (h : read g v = .error f) : g.Refuses f := of_readWithin_eq_error h

/-- A schema that is read out of a graph without long integers can be written. -/
theorem writable_of_read (hg : g.Writable) {schema : Schema} (h : read g v = .ok schema) :
    schema.Writable :=
  writable_of_readWithin hg h

end Schema

end TypedClient
