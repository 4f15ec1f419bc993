import TypedClient.FileTree.Basic
import TypedClient.Proofs.Document
import TypedClient.Proofs.Json.Reader

/-!
# `TypedClient.Proofs.Loading`: how loading a document can fail

A document that is read out of a mapping is looked at part by part (`Document.parts`), and the
first part that is refused is the failure of the whole. So the failures that loading does not
explain can be told exactly: the name of the file holds NUL, the text holds a number or another
scalar that its reader breaks down over, or the first part that is refused is an integer too
long to be shown or a key that is no text. JSON has the first two only, the second one as a
number with too many digits.

* `FirstFails`, `forM_eq_error_iff`: the first step that fails.
* `Document.Takes`, `Document.takes_ofEntries`: reading a document, part by part.
* `Escapes`: the causes of a failure that is not explained.
* `foreseen_iff`: there is a document, a load error or a schema error exactly if there is no
  such cause, whatever YAML is read with. `escaping_files` has files with one.
-/

set_option autoImplicit false

namespace TypedClient

/-! ### The first step that fails -/

section Steps

variable {ε α : Type} {step : α → Except ε Unit} {l : List α} {e : ε}

/-- Of the steps, the one that fails is the first to do so. -/
def FirstFails (step : α → Except ε Unit) (l : List α) (e : ε) : Prop :=
  ∃ before a after, l = before ++ a :: after ∧ (∀ b ∈ before, step b = .ok ()) ∧
    step a = .error e

/-- Steps in a row fail with the failure of the first one that fails; those after it are not
taken. -/
theorem forM_eq_error_iff : forM l step = .error e ↔ FirstFails step l e := by
  induction l with
  | nil =>
    refine ⟨fun h => (nomatch h), ?_⟩
    rintro ⟨before, a, after, h, -⟩
    simp at h
  | cons a rest ih =>
    -- Either the first step fails, or it succeeds and the failure is that of the others.
    rw [List.forM_cons, bind_eq_error_iff, ih]
    constructor
    · rintro (h | ⟨⟨⟩, ha, before, b, after, rfl, hbefore, hb⟩)
      · exact ⟨[], a, rest, rfl, List.forall_mem_nil _, h⟩
      · exact ⟨a :: before, b, after, rfl, List.forall_mem_cons.mpr ⟨ha, hbefore⟩, hb⟩
    · rintro ⟨before, b, after, h, hbefore, hb⟩
      cases before with
      | nil =>
        obtain ⟨rfl, -⟩ := List.cons.inj h
        exact .inl hb
      | cons _ before =>
        obtain ⟨rfl, rfl⟩ := List.cons.inj h
        obtain ⟨ha, hbefore⟩ := List.forall_mem_cons.mp hbefore
        exact .inr ⟨(), ha, before, b, after, rfl, hbefore, hb⟩

end Steps

/-- What a computation ends in, its result left out. -/
def ending {α : Type} (x : Except Failure α) : Except Failure Unit := x.map fun _ => ()

/-- Leaving the result out does not change a failure. -/
theorem ending_eq_error_iff {α : Type} {x : Except Failure α} {f : Failure} :
    ending x = .error f ↔ x = .error f := by
  cases x <;> simp [ending, Except.map]

namespace Document

variable {g : Graph} {entries : List (Value × Value)} {f : Failure} {α β : Type}

/-! ### The parts of a document -/

/-- A part of a document, by what is to come of it. -/
inductive Part where
  | text (v : Value)
  | schema (v : Value)
  | key (v : Value)

/-- Look at a part. -/
def Part.check (g : Graph) : Part → Except Failure Unit
  | .text v => ending (g.text v)
  | .schema v => ending (Schema.read g v)
  | .key v => match keyText? v with
    | some _ => .ok ()
    | none => .error (.defect .keyNotText)

/-- The computation ends as looking at the parts does, one after the other. -/
def Takes (g : Graph) (x : Except Failure α) (parts : List Part) : Prop :=
  ending x = forM parts (Part.check g)

/-- A computation that cannot fail looks at no part. -/
theorem takes_ok (a : α) : Takes g (.ok a) [] := rfl

/-- A computation that fails as looking at a part does takes that part. -/
theorem takes_singleton {x : Except Failure α} {p : Part} (h : ending x = p.check g) :
    Takes g x [p] := by
  rw [Takes, h, List.forM_cons, List.forM_nil]
  cases p.check g <;> rfl

/-- Writing a value as a text takes that value. -/
theorem takes_text (v : Value) : Takes g (g.text v) [.text v] := takes_singleton rfl

/-- Reading a schema takes its value. -/
theorem takes_schema (v : Value) : Takes g (Schema.read g v) [.schema v] := takes_singleton rfl

/-- Computations in a row take the parts of the first and then those of the second. The second one
may use the result of the first, but not for what it looks at. -/
theorem Takes.bind {x : Except Failure α} {k : α → Except Failure β} {parts more : List Part}
    (h : Takes g x parts) (hk : ∀ a, Takes g (k a) more) : Takes g (x >>= k) (parts ++ more) := by
  rw [Takes, List.forM_append, ← h]
  cases x with
  | error f => rfl
  | ok a => exact hk a

/-- A computation for every member of a list takes the parts of all of them, in the order of the
list. -/
theorem Takes.mapM {l : List α} {k : α → Except Failure β} {parts : α → List Part}
    (h : ∀ a ∈ l, Takes g (k a) (parts a)) : Takes g (l.mapM k) (l.flatMap parts) := by
  induction l with
  | nil => exact takes_ok _
  | cons a rest ih =>
    obtain ⟨ha, hrest⟩ := List.forall_mem_cons.mp h
    rw [List.mapM_cons, List.flatMap_cons]
    refine ha.bind fun b => ?_
    rw [← List.append_nil (rest.flatMap parts)]
    exact (ih hrest).bind fun bs => takes_ok _

/-- Values that count as false are passed over. -/
theorem takes_textOr (v : Value) : Takes g (textOr g v) (([v].filter g.truthy).map .text) := by
  unfold textOr
  split
  · rename_i htruthy
    rw [List.filter_cons_of_pos htruthy]
    exact takes_text v
  · rename_i hfalse
    rw [List.filter_cons_of_neg hfalse]
    exact takes_ok _

/-- The servers take the addresses that do not count as false. -/
theorem takes_serverUrls (servers : List Value) : Takes g (serverUrls g servers)
    (((servers.map fun v => lookupOrNull ((g.entries? v).getD []) "url").filter g.truthy).map
      .text) := by
  rw [← List.flatMap_singleton' (List.map _ _), List.flatMap_map]
  exact Takes.mapM fun v _ => takes_text v

/-- A table takes its keys, in order. It is made of all keys or of none, and a key that is refused
is refused in one way, so that it does not matter which one comes first. -/
theorem takes_tableOf (entries : List (Value × Value)) :
    Takes g (tableOf entries) (entries.map fun e => .key e.1) := by
  induction entries with
  | nil => exact takes_ok _
  | cons e rest ih =>
    rw [Takes, List.map_cons, List.forM_cons, ← ih, tableOf, tableOf, List.mapM_cons, Part.check]
    -- A key that is refused stops the table at once; after one that is not, both sides go on.
    cases keyText? e.1 with
    | none => rfl
    | some key => cases rest.mapM fun e => (keyText? e.1).map (·, e.2) <;> rfl

/-- What reading a document looks at, in this order: title, version and description, the
addresses of the servers, each schema after its name, and the keys of paths and components. -/
def parts (g : Graph) (entries : List (Value × Value)) : List Part :=
  let info := (g.entries? (lookupOrNull entries "info")).getD []
  let servers := (g.items? (lookupOrNull entries "servers")).getD []
  let paths := (g.entries? (lookupOrNull entries "paths")).getD []
  let components := (g.entries? (lookupOrNull entries "components")).getD []
  let shown := lookupOrNull info "title" :: lookupOrNull info "version" ::
    lookupOrNull info "description" ::
    servers.map fun v => lookupOrNull ((g.entries? v).getD []) "url"
  (shown.filter g.truthy).map .text ++
    (((g.entries? (lookupOrNull components "schemas")).getD []).flatMap fun e =>
      [.text e.1, .schema e.2]) ++
    (paths ++ components).map fun e => .key e.1

/-- Reading a document ends as looking at its parts does. -/
theorem takes_ofEntries (g : Graph) (entries : List (Value × Value)) :
    Takes g (ofEntries g entries) (parts g entries) := by
  -- The steps of the definition in their order; the parts are found by unification.
  have htakes : Takes g (ofEntries g entries) (_ ++ (_ ++ (_ ++ (_ ++ (_ ++ (_ ++ (_ ++ []))))))) :=
    (takes_textOr _).bind fun _ => (takes_textOr _).bind fun _ => (takes_textOr _).bind fun _ =>
      (takes_serverUrls _).bind fun _ =>
      (Takes.mapM fun e _ => (takes_text e.1).bind fun _ => (takes_schema e.2).bind fun _ =>
        takes_ok _).bind fun _ =>
      (takes_tableOf _).bind fun _ => (takes_tableOf _).bind fun _ => takes_ok _
  -- The first three parts are written as members of one list, and are filtered one by one.
  have hcons : ∀ (v : Value) (vs : List Value),
      (v :: vs).filter g.truthy = [v].filter g.truthy ++ vs.filter g.truthy :=
    fun v vs => List.filter_append [v] vs
  rw [parts, hcons (lookupOrNull _ "title"), hcons (lookupOrNull _ "version"),
    hcons (lookupOrNull _ "description")]
  simpa only [List.map_append, List.append_assoc, List.append_nil, List.singleton_append]
    using htakes

/-- The ways in which a part is refused. -/
theorem of_check_eq_error {part : Part} (h : part.check g = .error f) :
    (∃ e, f = .schema e) ∨ f = .defect .integerTooLong ∨ f = .defect .keyNotText := by
  -- Each kind of part has its own ways: a text is too long, a schema is anything its reader
  -- refuses, and a key is no text.
  cases part with
  | text v => exact .inr (.inl (Graph.of_text_eq_error (ending_eq_error_iff.mp h)).1)
  | schema v =>
    cases Schema.of_read_eq_error (ending_eq_error_iff.mp h) with
    | schema e => exact .inl ⟨e, rfl⟩
    | integer => exact .inr (.inl rfl)
  | key v =>
    rw [Part.check] at h
    split at h
    · cases h
    · exact .inr (.inr (Except.error.inj h).symm)

/-- Reading a document fails with the failure of its first part that is refused, and with nothing
else. -/
theorem ofEntries_eq_error_iff :
    ofEntries g entries = .error f ↔ FirstFails (Part.check g) (parts g entries) f := by
  rw [← ending_eq_error_iff, takes_ofEntries, forM_eq_error_iff]

end Document

/-! ### Files -/

variable {yaml : Yaml.Reader} {path : Path} {content : Except FileError ByteArray}
variable {text : String} {data : Data} {entries : List (Value × Value)} {f : Failure} {d : Defect}

/-- The suffix says that the file is JSON. -/
def IsJson (path : Path) : Prop := Text.lower path.suffix = ".json"

/-- The file could be read and is UTF-8, and this is its text. -/
def Holds (content : Except FileError ByteArray) (text : String) : Prop :=
  ∃ bytes s, content = .ok bytes ∧ String.fromUTF8? bytes = some s ∧
    text = String.ofList (normalizeLineEnds s.toList)

/-- Why loading a document breaks off without an explanation. -/
inductive Escapes (yaml : Yaml.Reader) (path : Path) (content : Except FileError ByteArray) :
    Defect → Prop
  /-- The name of the file holds NUL. -/
  | name (h : content = .error .nulInPath) : Escapes yaml path content (.file .nulInPath)
  /-- A number in JSON has more digits than are read. -/
  | number {text : String} (hjson : IsJson path) (h : Holds content text)
    (hread : Json.read text = .error .numberTooLong) : Escapes yaml path content .integerTooLong
  /-- In YAML there is something of a form that its kind does not have. -/
  | form {text : String} {d : Defect} (hyaml : ¬ IsJson path) (h : Holds content text)
    (hread : yaml text = .error (.defect d)) : Escapes yaml path content d
  /-- The first part of the document that is refused is, or holds, an integer that is too long
  to be shown. -/
  | integer {text : String} {data : Data} {entries : List (Value × Value)} (hyaml : ¬ IsJson path)
    (h : Holds content text) (hread : yaml text = .ok data)
    (hentries : data.graph.entries? data.root = some entries)
    (hfirst : FirstFails (Document.Part.check data.graph) (Document.parts data.graph entries)
      (.defect .integerTooLong)) : Escapes yaml path content .integerTooLong
  /-- The first part of the document that is refused is a key that is no text. -/
  | key {text : String} {data : Data} {entries : List (Value × Value)} (hyaml : ¬ IsJson path)
    (h : Holds content text) (hread : yaml text = .ok data)
    (hentries : data.graph.entries? data.root = some entries)
    (hfirst : FirstFails (Document.Part.check data.graph) (Document.parts data.graph entries)
      (.defect .keyNotText)) : Escapes yaml path content .keyNotText

/-- The document of what a file holds, which has to be a mapping. -/
theorem ofData_of_mapping (data : Data) (f : Failure) :
    ((if data.graph.isMapping data.root then pure data else throw f) >>= Document.ofData)
      = match data.graph.entries? data.root with
        | some entries => Document.ofEntries data.graph entries
        | none => .error f := by
  -- To be a mapping is to have entries.
  rw [Graph.isMapping]
  cases hentries : data.graph.entries? data.root with
  | none => rfl
  | some entries =>
    show Document.ofData data = _
    rw [Document.ofData, hentries]

/-- A text has to be parsed, to be a mapping and to describe a document. -/
theorem loadDocument_of_holds (h : Holds content text) :
    loadDocument yaml path content = parseText yaml path text >>= fun data =>
      match data.graph.entries? data.root with
      | some entries => Document.ofEntries data.graph entries
      | none => .error (.load (.noMapping path.text)) := by
  obtain ⟨bytes, s, rfl, hs, rfl⟩ := h
  simp only [loadDocument, loadData, hs]
  cases parseText yaml path (String.ofList (normalizeLineEnds s.toList)) with
  | error f => rfl
  | ok data => exact ofData_of_mapping data _

/-- A file whose text cannot be had. -/
theorem loadDocument_of_not_holds (path : Path) (h : ∀ text, ¬ Holds content text) :
    loadDocument yaml path content = .error (.load (.unreadable path.text)) ∨
      content = .error .nulInPath ∧
        loadDocument yaml path content = .error (.defect (.file .nulInPath)) := by
  cases content with
  | error e =>
    cases e with
    | nulInPath => exact .inr ⟨rfl, rfl⟩
    | _ => exact .inl rfl
  | ok bytes =>
    cases hs : String.fromUTF8? bytes with
    | none =>
      left
      simp only [loadDocument, loadData, hs]
      rfl
    | some s => exact absurd ⟨bytes, s, rfl, hs, rfl⟩ (h _)

/-- A file whose suffix says JSON is read as JSON, with what its reader finds wrong put into
words. -/
theorem parseText_json (h : IsJson path) :
    parseText yaml path text = (Json.read text).mapError (Json.Fault.failure path.text) :=
  if_pos h

/-- Every other file is read as YAML, by whichever reader is given. -/
theorem parseText_yaml (h : ¬ IsJson path) :
    parseText yaml path text = (yaml text).mapError (Yaml.Fault.failure path.text) :=
  if_neg h

/-- A failure that has been put into words comes from one that has not. -/
theorem mapError_eq_error_iff {ε ε' α : Type} {x : Except ε α} {g : ε → ε'} {e' : ε'} :
    x.mapError g = .error e' ↔ ∃ e, x = .error e ∧ g e = e' := by
  cases x <;> simp [Except.mapError]

/-- Putting failures into words leaves results as they are. -/
theorem mapError_eq_ok_iff {ε ε' α : Type} {x : Except ε α} {g : ε → ε'} {a : α} :
    x.mapError g = .ok a ↔ x = .ok a := by
  cases x <;> simp [Except.mapError]

/-- A document in JSON is keyed by text, and every integer in it can be shown. -/
theorem of_ofEntries_json (hread : Json.read text = .ok data)
    (h : Document.ofEntries data.graph entries = .error f) : ∃ e, f = .schema e := by
  obtain ⟨hkeyed, hwritable⟩ := Json.sound_of_read hread
  cases Document.refuses_of_ofEntries hkeyed h with
  | schema e => exact ⟨e, rfl⟩
  | integer hlong => exact absurd hwritable hlong

/-- Every failure to load a document is a load error, a schema error, or has one of the causes
that are not explained. -/
theorem of_loadDocument_eq_error (h : loadDocument yaml path content = .error f) :
    (∃ e, f = .load e) ∨ (∃ e, f = .schema e) ∨
      ∃ d, f = .defect d ∧ Escapes yaml path content d := by
  -- The cases follow the loader: the text, its reader by the suffix, and the document in the data.
  by_cases hholds : ∃ text, Holds content text
  · obtain ⟨text, htext⟩ := hholds
    rw [loadDocument_of_holds htext, bind_eq_error_iff] at h
    by_cases hjson : IsJson path
    · rw [parseText_json hjson] at h
      rcases h with h | ⟨data, hdata, h⟩
      · obtain ⟨fault, hread, rfl⟩ := mapError_eq_error_iff.mp h
        cases fault with
        | malformed => exact .inl ⟨_, rfl⟩
        | numberTooLong => exact .inr (.inr ⟨_, rfl, .number hjson htext hread⟩)
      · split at h
        · exact .inr (.inl (of_ofEntries_json (mapError_eq_ok_iff.mp hdata) h))
        · exact .inl ⟨_, (Except.error.inj h).symm⟩
    · rw [parseText_yaml hjson] at h
      rcases h with h | ⟨data, hdata, h⟩
      · obtain ⟨fault, hread, rfl⟩ := mapError_eq_error_iff.mp h
        cases fault with
        | malformed => exact .inl ⟨_, rfl⟩
        | defect d => exact .inr (.inr ⟨d, rfl, .form hjson htext hread⟩)
      · have hread := mapError_eq_ok_iff.mp hdata
        split at h
        · rename_i entries hentries
          have hfirst := Document.ofEntries_eq_error_iff.mp h
          -- The part that is refused first says which cause it is.
          obtain ⟨_, _, _, -, -, hpart⟩ := id hfirst
          rcases Document.of_check_eq_error hpart with hschema | rfl | rfl
          · exact .inr (.inl hschema)
          · exact .inr (.inr ⟨_, rfl, .integer hjson htext hread hentries hfirst⟩)
          · exact .inr (.inr ⟨_, rfl, .key hjson htext hread hentries hfirst⟩)
        · exact .inl ⟨_, (Except.error.inj h).symm⟩
  · rcases loadDocument_of_not_holds path (not_exists.mp hholds) with hload | ⟨hnul, hload⟩
    · rw [hload] at h
      exact .inl ⟨_, (Except.error.inj h).symm⟩
    · rw [hload] at h
      exact .inr (.inr ⟨_, (Except.error.inj h).symm, .name hnul⟩)

/-- Whatever has one of these causes breaks off. -/
theorem loadDocument_of_escapes (h : Escapes yaml path content d) :
    loadDocument yaml path content = .error (.defect d) := by
  cases h with
  | name h =>
    rw [h]
    rfl
  | number hjson htext hread =>
    rw [loadDocument_of_holds htext, parseText_json hjson, hread]
    rfl
  | form hyaml htext hread =>
    rw [loadDocument_of_holds htext, parseText_yaml hyaml, hread]
    rfl
  | integer hyaml htext hread hentries hfirst | key hyaml htext hread hentries hfirst =>
    rw [loadDocument_of_holds htext, parseText_yaml hyaml, bind_eq_error_iff]
    refine .inr ⟨_, mapError_eq_ok_iff.mpr hread, ?_⟩
    rw [hentries]
    exact Document.ofEntries_eq_error_iff.mpr hfirst

/-- Loading comes to a document, to a load error or to a schema error. -/
def Foreseen (x : Except Failure Document) : Prop :=
  (∃ d, x = .ok d) ∨ (∃ e, x = .error (.load e)) ∨ ∃ e, x = .error (.schema e)

/-- Whatever the file is called and holds, loading it comes to a document, a load error or a
schema error, unless one of the causes is there that are not explained; then it breaks off with
that one. Nothing is asked of the reader of YAML: it may find a text malformed or break down over
it, and of the mappings that it gives nothing is taken for granted, so any version of it will do,
`Yaml.read` among them. -/
theorem foreseen_iff (path : Path) (content : Except FileError ByteArray) :
    (Foreseen (loadDocument yaml path content) ↔ ∀ d, ¬ Escapes yaml path content d) ∧
      ∀ d, loadDocument yaml path content = .error (.defect d) ↔ Escapes yaml path content d := by
  -- The second half says more: which defect it is. The first one follows, as nothing else is left.
  have hdefect : ∀ d, loadDocument yaml path content = .error (.defect d) ↔
      Escapes yaml path content d := by
    refine fun d => ⟨fun h => ?_, loadDocument_of_escapes⟩
    rcases of_loadDocument_eq_error h with ⟨e, he⟩ | ⟨e, he⟩ | ⟨d', hd, hescapes⟩
    · cases he
    · cases he
    · cases hd
      exact hescapes
  refine ⟨⟨fun h d hescapes => ?_, fun h => ?_⟩, hdefect⟩
  · rcases h with ⟨_, h⟩ | ⟨_, h⟩ | ⟨_, h⟩ <;> cases h.symm.trans ((hdefect d).mpr hescapes)
  · cases hload : loadDocument yaml path content with
    | ok document => exact .inl ⟨document, rfl⟩
    | error f =>
      rcases of_loadDocument_eq_error hload with ⟨e, rfl⟩ | ⟨e, rfl⟩ | ⟨d, -, hescapes⟩
      · exact .inr (.inl ⟨e, rfl⟩)
      · exact .inr (.inr ⟨e, rfl⟩)
      · exact absurd hescapes (h d)

/-- The name of the first file holds NUL, the second one has a date in the thirteenth month of a
year, in the third one a text is its own default value, and in the last one a path is the number
one. -/
theorem escaping_files :
    loadDocument Yaml.read ⟨"", ["s\x00.yaml"]⟩ (FileTree.read ⟨[], []⟩ ⟨"", ["s\x00.yaml"]⟩)
        = .error (.defect (.file .nulInPath)) ∧
      loadDocument Yaml.read ⟨"", ["s.yaml"]⟩ (.ok "info:\n  title: 2024-13-01\n".toUTF8)
        = .error (.defect .impossibleDate) ∧
      loadDocument Yaml.read ⟨"", ["s.yaml"]⟩ (.ok "info: &i !!str \x7b=: *i\x7d\n".toUTF8)
        = .error (.defect .endlessRecursion) ∧
      loadDocument Yaml.read ⟨"", ["s.yaml"]⟩ (.ok "paths:\n  1:\n".toUTF8)
        = .error (.defect .keyNotText) :=
  ⟨ending_eq_error_iff.mp (by decide +kernel), ending_eq_error_iff.mp (by decide +kernel),
    ending_eq_error_iff.mp (by decide +kernel), ending_eq_error_iff.mp (by decide +kernel)⟩

end TypedClient
