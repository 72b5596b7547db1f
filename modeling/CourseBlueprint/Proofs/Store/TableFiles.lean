import CourseBlueprint.Proofs.Store.Directory

/-!
# Files of tables

What is written to a table is what is read from it, for each of the four tables and rows of any
kind whose times are dates (`Table.Sound.readsBack`). A file may also leave out the restrictions of
a master tag, or the changes of a child tag: such a row is read as one without any
(`MasterTag.ofDocument?_without`, `ChildTag.ofDocument?_without`). `tables_read_back` says both of
whole tables.
-/

namespace CourseBlueprint

open Json (Document Record TextUnit units)

/-! ## Records with a field left out -/

namespace Json

theorem units_injective {s t : String} (h : units s = units t) : s = t := by
  have htext := congrArg text? h
  rw [text?_units, text?_units] at htext
  exact Option.some.inj htext

/-- An object without its fields of a name. -/
def Document.without (name : String) : Document → Document
  | .object fields => .object (fields.filter fun f => f.1 ≠ units name)
  | d => d

theorem Document.without_record (name : String) (fields : List (String × Document)) :
    (Document.record fields).without name = .record (fields.filter fun f => f.1 ≠ name) := by
  rw [record, record, without, List.filter_map]
  congr 2
  refine List.filter_congr fun f _ => decide_eq_decide.2 ?_
  exact not_congr ⟨units_injective, congrArg units⟩

/-- A field that is left out has its default. -/
theorem Record.withDefault_of_none {α : Type} {r : Record} {name : String} (default : α)
    {read : Document → Option α} (h : r.find? name = none) :
    r.withDefault name default read = some default := by
  rw [withDefault, h]

end Json

theorem MasterTag.ofDocument?_without {t : MasterTag} (h : t.IsDated) :
    ofDocument? (t.toDocument.without "restrictions") = some { t with restrictions := .none } := by
  rw [toDocument, Document.without_record]
  simp only [List.filter, ne_eq, String.reduceEq, not_false_eq_true, decide_true, not_true_eq_false,
    decide_false]
  exact ofDocument?_of_find? h (Record.ofDocument?_record (by simp)) rfl rfl rfl rfl
    (Record.withDefault_of_none _ rfl) rfl rfl

theorem ChildTag.ofDocument?_without {t : ChildTag} (h : t.IsDated) :
    ofDocument? (t.toDocument.without "downstream_changes") = some { t with changes := ∅ } := by
  rw [toDocument, Document.without_record]
  simp only [List.filter, ne_eq, String.reduceEq, not_false_eq_true, decide_true, not_true_eq_false,
    decide_false]
  exact ofDocument?_of_find? h (Record.ofDocument?_record (by simp)) rfl rfl rfl rfl
    (Record.withDefault_of_none _ rfl) rfl rfl

/-! ## Whole tables -/

variable {α : Type}

/-- Good rows that are written to a table, in a directory that is there or can be made, are the rows
that are then read from it. -/
def Table.ReadsBack (table : Table α) (Good : α → Prop) : Prop :=
  ∀ rows, (∀ a ∈ rows, Good a) → ∀ d d', Directory.make.run d = (.ok (), d') →
    ((do Directory.make; Directory.write table rows; Directory.rows table).run d).1 = .ok rows

/-- What is written for each row of a list, without a field where that is marked. -/
def Table.documents (table : Table α) (name : String) (rows : List (α × Bool)) : Document :=
  .array (rows.map fun row =>
    if row.2 then (table.format.write row.1).without name else table.format.write row.1)

/-- Good rows are read from any text of a table in which some of them stand without a field: those
with the field as they are, those without it as `blank` makes them. -/
def Table.ReadsWithout (table : Table α) (Good : α → Prop) (name : String) (blank : α → α) : Prop :=
  ∀ rows : List (α × Bool), (∀ row ∈ rows, Good row.1) →
    ∀ text, Document.ofText? text = some (table.documents name rows) →
      ∀ entries : Dict Entry, (Directory.present (entries.put table.file (.file text))).read table =
        .ok (rows.map fun row => if row.2 then blank row.1 else row.1)

theorem Table.Sound.readsBack {table : Table α} {Good : α → Prop} (ht : table.Sound Good) :
    table.ReadsBack Good := by
  intro rows hrows d d' hmake
  have hpresent : d'.isPresent = true := (Directory.entries_make hmake).2 (.inr rfl)
  obtain ⟨d₁, hwrite, hpresent₁, hstored, -⟩ := Directory.stored_write ht hrows hpresent
  rw [Action.run_bind_ok hmake, Action.run_bind_ok hwrite, Directory.run_rows,
    Directory.read_eq_stored hpresent₁, hstored]

theorem Table.Sound.readsWithout {table : Table α} {Good : α → Prop} (ht : table.Sound Good)
    {name : String} {blank : α → α}
    (hblank : ∀ a, Good a → table.format.read? ((table.format.write a).without name) =
      some (blank a)) : table.ReadsWithout Good name blank := by
  intro rows hrows text htext entries
  have hfile : (Directory.present (entries.put table.file (.file text))).entries.get? table.file =
      some (.file text) := Dict.get?_put_self
  rw [Directory.read_eq_stored rfl, Directory.stored_of_text hfile]
  rw [RowFormat.decode?, htext, Option.bind_some, Table.documents, Document.list?,
    Json.mapM_map_eq (k := fun row => if row.2 then blank row.1 else row.1)]
  · rfl
  · rintro ⟨a, _ | _⟩ ha
    · exact ht.faithful.read?_write (hrows _ ha)
    · exact hblank a (hrows _ ha)

namespace Directory

/-- The four tables read back whatever was written to them, as long as times are dates, and take
rows without restrictions or changes as those without any. -/
theorem tables_read_back :
    templateTable.ReadsBack Template.IsDated ∧
    subscriptionTable.ReadsBack (fun _ => True) ∧
    masterTagTable.ReadsBack MasterTag.IsDated ∧
    childTagTable.ReadsBack ChildTag.IsDated ∧
    (masterTagTable.ReadsWithout MasterTag.IsDated "restrictions" fun t =>
      { t with restrictions := .none }) ∧
    childTagTable.ReadsWithout ChildTag.IsDated "downstream_changes" fun t =>
      { t with changes := ∅ } :=
  ⟨templateTable_sound.readsBack, subscriptionTable_sound.readsBack,
    masterTagTable_sound.readsBack, childTagTable_sound.readsBack,
    masterTagTable_sound.readsWithout fun _ => MasterTag.ofDocument?_without,
    childTagTable_sound.readsWithout fun _ => ChildTag.ofDocument?_without⟩

end Directory

namespace Sample

/-- A time with a fraction of a second. -/
def stamp : Timestamp := ⟨2020, 1, 2, 3, 4, 5, 678900000⟩

theorem isDate_stamp : stamp.IsDate := ⟨by decide, by decide⟩

/-- A child tag whose names need escapes, without a migration identifier. -/
def quotedTag : ChildTag :=
  ⟨⟨5⟩, ⟨2⟩, ⟨.wikiPage, ⟨1⟩⟩, none, .ofList ["a \"b\"", "c\\d\n"], stamp, stamp⟩

theorem tables_of_quotedTag :
    quotedTag.IsDated ∧
    ((do Directory.make; Directory.write Directory.childTagTable [quotedTag]
         Directory.rows Directory.childTagTable).run (.missing (some ∅))).1 = .ok [quotedTag] ∧
    ∃ text, Document.ofText? text =
        some (Directory.childTagTable.documents "downstream_changes" [(quotedTag, true)]) ∧
      (Directory.present ((∅ : Dict Entry).put "child_tags.json" (.file text))).read
        Directory.childTagTable = .ok [{ quotedTag with changes := ∅ }] := by
  have hdated : quotedTag.IsDated := ⟨isDate_stamp, isDate_stamp⟩
  have htext : Document.ofText? (String.ofList
      (Directory.childTagTable.documents "downstream_changes" [(quotedTag, true)]).pretty) =
        some (Directory.childTagTable.documents "downstream_changes" [(quotedTag, true)]) := by
    rw [Document.ofText?, String.toList_ofList, Document.ofChars?_pretty rfl]
  obtain ⟨-, -, -, hback, -, hwithout⟩ := Directory.tables_read_back
  refine ⟨hdated, hback [quotedTag] ?_ _ _ rfl, _, htext, hwithout [(quotedTag, true)] ?_ _ htext ∅⟩
  · rintro a ha
    rwa [List.mem_singleton.1 ha]
  · rintro row hrow
    rwa [List.mem_singleton.1 hrow]

end Sample

end CourseBlueprint
