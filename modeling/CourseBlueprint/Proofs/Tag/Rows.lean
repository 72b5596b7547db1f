import CourseBlueprint.Proofs.Json.Layout
import CourseBlueprint.Proofs.Timestamp
import CourseBlueprint.Proofs.Uuid
import CourseBlueprint.Tag.Rows

/-!
# Rows read back

A row format is faithful to a set of rows if each of them reads back from what is written for it,
and only they are ever read. Tables of such rows read back from their text
(`RowFormat.Faithful.decode?_encode`). All four formats are faithful to the rows whose times are
dates.
-/

namespace CourseBlueprint

open Json (Document Record TextUnit units)

namespace Json

/-! ## Records -/

@[simp] theorem Document.text?_text (s : String) : (Document.text s).text? = some s :=
  text?_units s

theorem Record.named?_units (fields : List (String × Document)) :
    Record.named? (fields.map fun (key, d) => (units key, d)) = some fields := by
  induction fields with
  | nil => rfl
  | cons f fields ih =>
    obtain ⟨key, d⟩ := f
    rw [List.map_cons, Record.named?, text?_units, Option.bind_some, ih, Option.map_some]

theorem Record.required_of_find? {α : Type} {r : Record} {name : String} {d : Document}
    {read : Document → Option α} {a : α} (hfind : r.find? name = some d) (hread : read d = some a) :
    r.required name read = some a := by
  rw [required, hfind]
  exact hread

theorem Record.withDefault_of_find? {α : Type} {r : Record} {name : String} {d : Document}
    {read : Document → Option α} {a : α} (default : α) (hfind : r.find? name = some d)
    (hread : read d = some a) : r.withDefault name default read = some a := by
  rw [withDefault, hfind]
  exact hread

/-- A text that may be missing reads back. -/
theorem Record.nullable_text {r : Record} {name : String} {text : Option String}
    (hfind : r.find? name = some (.option .text text)) :
    r.nullable name Document.text? = some text := by
  rw [nullable, hfind]
  cases text with
  | none => rfl
  | some text =>
    show (Document.text text).text?.map some = some (some text)
    rw [Document.text?_text, Option.map_some]

/-- A record that is written with each of its fields once is read with these fields. -/
theorem Record.ofDocument?_record {names : List String} {fields : List (String × Document)}
    (h : (fields.map Prod.fst).Nodup) :
    Record.ofDocument? names (.record fields) = some ⟨fields, true⟩ := by
  have hcount : ∀ name, fields.countP (fun f => f.1 = name) ≤ 1 := by
    intro name
    have := List.nodup_iff_count.1 h name
    rw [List.count, List.countP_map] at this
    refine Nat.le_trans (List.countP_mono_left fun f _ hf => ?_) this
    simpa using hf
  rw [Document.record, Record.ofDocument?, Record.named?_units, Option.bind_some, if_pos]
  exact List.all_eq_true.2 fun name _ => decide_eq_true (hcount name)

theorem mapM_map_eq {α β γ : Type} {f : α → β} {g : β → Option γ} {k : α → γ} {l : List α}
    (h : ∀ x ∈ l, g (f x) = some (k x)) : (l.map f).mapM g = some (l.map k) := by
  induction l with
  | nil => rfl
  | cons x l ih =>
    have hl := ih fun y hy => h y (List.mem_cons_of_mem _ hy)
    rw [List.map_cons, List.mapM_cons, h x List.mem_cons_self, hl]
    rfl

theorem exists_of_mem_mapM {α β : Type} {g : α → Option β} {xs : List α} {ys : List β}
    (h : xs.mapM g = some ys) {y : β} (hy : y ∈ ys) : ∃ x ∈ xs, g x = some y := by
  induction xs generalizing ys with
  | nil =>
    rw [List.mapM_nil] at h
    rw [← Option.some.inj h] at hy
    exact absurd hy List.not_mem_nil
  | cons x xs ih =>
    rw [List.mapM_cons] at h
    obtain ⟨z, hz, h⟩ := Option.bind_eq_some_iff.1 h
    obtain ⟨zs, hzs, h⟩ := Option.bind_eq_some_iff.1 h
    rw [← Option.some.inj h] at hy
    rcases List.mem_cons.1 hy with rfl | hy
    · exact ⟨x, List.mem_cons_self, hz⟩
    · obtain ⟨x', hx', hread⟩ := ih hzs hy
      exact ⟨x', List.mem_cons_of_mem _ hx', hread⟩

theorem areNumberFree_iff {ds : List Document} :
    areNumberFree ds = true ↔ ∀ d ∈ ds, d.isNumberFree = true := by
  induction ds with
  | nil => simp [areNumberFree]
  | cons d ds ih => simp [areNumberFree, ih]

theorem isNumberFree_record {fields : List (String × Document)}
    (h : ∀ f ∈ fields, f.2.isNumberFree = true) : (Document.record fields).isNumberFree = true := by
  rw [Document.record, Document.isNumberFree]
  induction fields with
  | nil => rfl
  | cons f fields ih =>
    rw [List.map_cons, haveNoNumber, Bool.and_eq_true]
    exact ⟨h f List.mem_cons_self, ih fun g hg => h g (List.mem_cons_of_mem _ hg)⟩

end Json

/-! ## Parts of rows -/

@[simp] theorem Uuid.ofDocument?_toDocument (u : Uuid) :
    Uuid.ofDocument? u.toDocument = some u := by
  rw [Uuid.ofDocument?, Uuid.toDocument, Document.text?_text, Option.bind_some,
    Uuid.ofText?_hyphenated]

theorem Timestamp.ofDocument?_toDocument {t : Timestamp} (h : t.IsDate) :
    Timestamp.ofDocument? t.toDocument = some t := by
  rw [Timestamp.ofDocument?, Timestamp.toDocument, Document.text?_text, Option.bind_some,
    Timestamp.ofText?_text h]

theorem Timestamp.isDate_of_ofDocument? {d : Document} {t : Timestamp}
    (h : Timestamp.ofDocument? d = some t) : t.IsDate := by
  obtain ⟨text, -, h⟩ := Option.bind_eq_some_iff.1 h
  exact Timestamp.isDate_of_ofChars? h

@[simp] theorem ContentKey.ofDocument?_toDocument (k : ContentKey) :
    ContentKey.ofDocument? k.toDocument = some k := by
  have hkind : (Document.text k.kind.name).name?.bind Kind.ofName? = some k.kind := by
    show (Json.text? (units k.kind.name)).bind Kind.ofName? = some k.kind
    rw [Json.text?_units, Option.bind_some, Kind.ofName?_name]
  rw [ContentKey.ofDocument?, ContentKey.toDocument, Record.ofDocument?_record (by simp)]
  refine Option.bind_eq_some_iff.2 ⟨_, rfl, ?_⟩
  refine Option.bind_eq_some_iff.2 ⟨_, Record.required_of_find? rfl hkind, ?_⟩
  refine Option.bind_eq_some_iff.2
    ⟨_, Record.required_of_find? rfl k.id.ofDocument?_toDocument, ?_⟩
  rfl

namespace Restrictions

theorem get?_foldl_set {es : List (Lock × Bool)} (h : (es.map Prod.fst).Nodup) (r : Restrictions)
    (l : Lock) : (es.foldl (fun r e => r.set e.1 e.2) r).get? l =
      ((es.find? fun e => e.1 = l).map Prod.snd).or (r.get? l) := by
  induction es generalizing r with
  | nil => simp
  | cons e es ih =>
    obtain ⟨he, hes⟩ := List.nodup_cons.1 h
    rw [List.foldl_cons, ih hes, get?_set]
    by_cases hl : e.1 = l
    · subst hl
      have hnone : es.find? (fun e' => e'.1 = e.1) = Option.none :=
        List.find?_eq_none.2 fun e' he' heq => he (by
          rw [← of_decide_eq_true heq]
          exact List.mem_map_of_mem he')
      simp [hnone]
    · simp [hl, Ne.symm hl]

theorem fst_entries_sublist (r : Restrictions) (ls : List Lock) :
    ((ls.filterMap fun l => (r.get? l).map fun on => (l, on)).map Prod.fst).Sublist ls := by
  induction ls with
  | nil => exact .slnil
  | cons l ls ih =>
    cases hl : r.get? l with
    | none =>
      rw [List.filterMap_cons_none (by rw [hl]; rfl)]
      exact ih.cons l
    | some on =>
      rw [List.filterMap_cons_some (by rw [hl]; rfl)]
      exact ih.cons_cons l

theorem get?_ofEntries_entries (r : Restrictions) (l : Lock) :
    (ofEntries r.entries).get? l = r.get? l := by
  have hnodup : (r.entries.map Prod.fst).Nodup :=
    (fst_entries_sublist r Lock.all).nodup (by decide)
  rw [ofEntries, get?_foldl_set hnodup, get?_none, Option.or_none]
  cases hl : r.get? l with
  | none =>
    have : r.entries.find? (fun e => e.1 = l) = Option.none := by
      refine List.find?_eq_none.2 fun e he heq => ?_
      obtain ⟨m, -, hm⟩ := List.mem_filterMap.1 he
      obtain ⟨on, hon, rfl⟩ := Option.map_eq_some_iff.1 hm
      rw [← of_decide_eq_true heq] at hl
      rw [hl] at hon
      cases hon
    rw [this]
    rfl
  | some on =>
    have hmem : (l, on) ∈ r.entries :=
      List.mem_filterMap.2 ⟨l, Lock.mem_all l, by rw [hl]; rfl⟩
    obtain ⟨e, he⟩ : ∃ e, r.entries.find? (fun e => e.1 = l) = some e :=
      Option.isSome_iff_exists.1 (List.find?_isSome.2 ⟨_, hmem, by simp⟩)
    obtain ⟨m, -, hm⟩ := List.mem_filterMap.1 (List.mem_of_find?_eq_some he)
    obtain ⟨on', hon', rfl⟩ := Option.map_eq_some_iff.1 hm
    have hml : m = l := by simpa using List.find?_some he
    rw [hml, hl] at hon'
    rw [he, ← Option.some.inj hon']
    rfl

@[simp] theorem ofDocument?_toDocument (r : Restrictions) :
    Restrictions.ofDocument? r.toDocument = some r := by
  have hread : Document.entries? Lock.ofName? Document.bool? r.toDocument = some r.entries := by
    rw [toDocument, Document.record, Document.entries?, List.map_map]
    refine (Json.mapM_map_eq (k := id) fun e _ => ?_).trans (congrArg some (List.map_id _))
    simp [Lock.ofName?_name, Document.bool?]
  rw [ofDocument?, hread, Option.map_some, Option.some.injEq]
  exact eq_of_get?_eq (get?_ofEntries_entries r)

end Restrictions

@[simp] theorem NameSet.ofDocument?_toDocument (s : NameSet) :
    NameSet.ofDocument? s.toDocument = some s := by
  have hread : Document.list? Document.text? s.toDocument = some s.toList := by
    rw [toDocument, Document.texts, Document.list?]
    have := Json.mapM_map_eq (f := Document.text) (g := Document.text?) (k := id) (l := s.toList)
      (fun name _ => Document.text?_text name)
    rwa [List.map_id] at this
  rw [ofDocument?, hread, Option.map_some, Option.some.injEq]
  exact eq_of_mem_iff fun x => mem_ofList

/-! ## Rows -/

/-- The rows of a set read back, and only they are read. -/
structure RowFormat.Faithful {α : Type} (f : RowFormat α) (Good : α → Prop) : Prop where
  read?_write : ∀ {a}, Good a → f.read? (f.write a) = some a
  good_of_read? : ∀ {d a}, f.read? d = some a → Good a
  isNumberFree_write : ∀ a, (f.write a).isNumberFree = true

/-- The times of a template are dates. -/
def Template.IsDated (t : Template) : Prop := t.createdAt.IsDate

/-- The times of a master tag are dates. -/
structure MasterTag.IsDated (t : MasterTag) : Prop where
  createdAt : t.createdAt.IsDate
  updatedAt : t.updatedAt.IsDate

/-- The times of a child tag are dates. -/
structure ChildTag.IsDated (t : ChildTag) : Prop where
  createdAt : t.createdAt.IsDate
  updatedAt : t.updatedAt.IsDate

theorem ContentKey.isNumberFree_toDocument (k : ContentKey) :
    k.toDocument.isNumberFree = true := rfl

theorem Restrictions.isNumberFree_toDocument (r : Restrictions) :
    r.toDocument.isNumberFree = true := by
  refine Json.isNumberFree_record fun f hf => ?_
  obtain ⟨e, -, rfl⟩ := List.mem_map.1 hf
  rfl

theorem NameSet.isNumberFree_toDocument (s : NameSet) : s.toDocument.isNumberFree = true := by
  rw [toDocument, Document.texts, Document.isNumberFree, Json.areNumberFree_iff]
  intro d hd
  obtain ⟨name, -, rfl⟩ := List.mem_map.1 hd
  rfl

theorem Template.format_faithful : Template.format.Faithful Template.IsDated where
  read?_write := by
    intro t h
    show ofDocument? t.toDocument = some t
    rw [ofDocument?, toDocument, Record.ofDocument?_record (by simp)]
    refine Option.bind_eq_some_iff.2 ⟨_, rfl, ?_⟩
    refine Option.bind_eq_some_iff.2
      ⟨_, Record.required_of_find? rfl t.id.ofDocument?_toDocument, ?_⟩
    refine Option.bind_eq_some_iff.2
      ⟨_, Record.required_of_find? rfl t.courseId.ofDocument?_toDocument, ?_⟩
    refine Option.bind_eq_some_iff.2
      ⟨_, Record.required_of_find? rfl (Timestamp.ofDocument?_toDocument h), ?_⟩
    rfl
  good_of_read? := by
    intro d t h
    obtain ⟨r, -, h⟩ := Option.bind_eq_some_iff.1 h
    obtain ⟨id, -, h⟩ := Option.bind_eq_some_iff.1 h
    obtain ⟨courseId, -, h⟩ := Option.bind_eq_some_iff.1 h
    obtain ⟨createdAt, hcreated, h⟩ := Option.bind_eq_some_iff.1 h
    obtain ⟨dt, -, hcreated⟩ := Option.bind_eq_some_iff.1 hcreated
    rw [← Option.some.inj h]
    exact Timestamp.isDate_of_ofDocument? hcreated
  isNumberFree_write := fun t => rfl

theorem Subscription.format_faithful : Subscription.format.Faithful fun _ => True where
  read?_write := by
    intro s _
    show ofDocument? s.toDocument = some s
    rw [ofDocument?, toDocument, Record.ofDocument?_record (by simp)]
    refine Option.bind_eq_some_iff.2 ⟨_, rfl, ?_⟩
    refine Option.bind_eq_some_iff.2
      ⟨_, Record.required_of_find? rfl s.id.ofDocument?_toDocument, ?_⟩
    refine Option.bind_eq_some_iff.2
      ⟨_, Record.required_of_find? rfl s.templateId.ofDocument?_toDocument, ?_⟩
    refine Option.bind_eq_some_iff.2
      ⟨_, Record.required_of_find? rfl s.childCourseId.ofDocument?_toDocument, ?_⟩
    rfl
  good_of_read? := fun _ => trivial
  isNumberFree_write := fun s => rfl

/-- A master tag is read from any record with its fields, whatever it says of the restrictions. -/
theorem MasterTag.ofDocument?_of_find? {t : MasterTag} (h : t.IsDated) {d : Document} {r : Record}
    {restrictions : Restrictions}
    (hd : Record.ofDocument? ["id", "master_template_id", "content", "migration_id",
      "restrictions", "created_at", "updated_at"] d = some r)
    (hid : r.find? "id" = some t.id.toDocument)
    (htemplate : r.find? "master_template_id" = some t.templateId.toDocument)
    (hcontent : r.find? "content" = some t.content.toDocument)
    (hmigration : r.find? "migration_id" = some (.text t.migrationId))
    (hrestrictions : r.withDefault "restrictions" .none Restrictions.ofDocument? =
      some restrictions)
    (hcreated : r.find? "created_at" = some t.createdAt.toDocument)
    (hupdated : r.find? "updated_at" = some t.updatedAt.toDocument) :
    ofDocument? d = some { t with restrictions } := by
  refine Option.bind_eq_some_iff.2 ⟨_, hd, ?_⟩
  refine Option.bind_eq_some_iff.2
    ⟨_, Record.required_of_find? hid t.id.ofDocument?_toDocument, ?_⟩
  refine Option.bind_eq_some_iff.2
    ⟨_, Record.required_of_find? htemplate t.templateId.ofDocument?_toDocument, ?_⟩
  refine Option.bind_eq_some_iff.2
    ⟨_, Record.required_of_find? hcontent t.content.ofDocument?_toDocument, ?_⟩
  refine Option.bind_eq_some_iff.2
    ⟨_, Record.required_of_find? hmigration (Document.text?_text t.migrationId), ?_⟩
  refine Option.bind_eq_some_iff.2 ⟨_, hrestrictions, ?_⟩
  refine Option.bind_eq_some_iff.2
    ⟨_, Record.required_of_find? hcreated (Timestamp.ofDocument?_toDocument h.createdAt), ?_⟩
  refine Option.bind_eq_some_iff.2
    ⟨_, Record.required_of_find? hupdated (Timestamp.ofDocument?_toDocument h.updatedAt), ?_⟩
  rfl

theorem MasterTag.format_faithful : MasterTag.format.Faithful MasterTag.IsDated where
  read?_write := by
    intro t h
    exact MasterTag.ofDocument?_of_find? h (Record.ofDocument?_record (by simp)) rfl rfl rfl rfl
      (Record.withDefault_of_find? _ rfl t.restrictions.ofDocument?_toDocument) rfl rfl
  good_of_read? := by
    intro d t h
    obtain ⟨r, -, h⟩ := Option.bind_eq_some_iff.1 h
    obtain ⟨id, -, h⟩ := Option.bind_eq_some_iff.1 h
    obtain ⟨templateId, -, h⟩ := Option.bind_eq_some_iff.1 h
    obtain ⟨content, -, h⟩ := Option.bind_eq_some_iff.1 h
    obtain ⟨migrationId, -, h⟩ := Option.bind_eq_some_iff.1 h
    obtain ⟨restrictions, -, h⟩ := Option.bind_eq_some_iff.1 h
    obtain ⟨createdAt, hcreated, h⟩ := Option.bind_eq_some_iff.1 h
    obtain ⟨updatedAt, hupdated, h⟩ := Option.bind_eq_some_iff.1 h
    obtain ⟨dt, -, hcreated⟩ := Option.bind_eq_some_iff.1 hcreated
    obtain ⟨dt', -, hupdated⟩ := Option.bind_eq_some_iff.1 hupdated
    rw [← Option.some.inj h]
    exact ⟨Timestamp.isDate_of_ofDocument? hcreated, Timestamp.isDate_of_ofDocument? hupdated⟩
  isNumberFree_write := by
    intro t
    refine Json.isNumberFree_record fun f hf => ?_
    simp only [List.mem_cons, List.not_mem_nil, or_false] at hf
    rcases hf with rfl | rfl | rfl | rfl | rfl | rfl | rfl
    · rfl
    · rfl
    · exact t.content.isNumberFree_toDocument
    · rfl
    · exact t.restrictions.isNumberFree_toDocument
    · rfl
    · rfl

/-- A child tag is read from any record with its fields, whatever it says of the changes. -/
theorem ChildTag.ofDocument?_of_find? {t : ChildTag} (h : t.IsDated) {d : Document} {r : Record}
    {changes : NameSet}
    (hd : Record.ofDocument? ["id", "subscription_id", "content", "migration_id",
      "downstream_changes", "created_at", "updated_at"] d = some r)
    (hid : r.find? "id" = some t.id.toDocument)
    (hsubscription : r.find? "subscription_id" = some t.subscriptionId.toDocument)
    (hcontent : r.find? "content" = some t.content.toDocument)
    (hmigration : r.find? "migration_id" = some (.option .text t.migrationId))
    (hchanges : r.withDefault "downstream_changes" ∅ NameSet.ofDocument? = some changes)
    (hcreated : r.find? "created_at" = some t.createdAt.toDocument)
    (hupdated : r.find? "updated_at" = some t.updatedAt.toDocument) :
    ofDocument? d = some { t with changes } := by
  refine Option.bind_eq_some_iff.2 ⟨_, hd, ?_⟩
  refine Option.bind_eq_some_iff.2
    ⟨_, Record.required_of_find? hid t.id.ofDocument?_toDocument, ?_⟩
  refine Option.bind_eq_some_iff.2
    ⟨_, Record.required_of_find? hsubscription t.subscriptionId.ofDocument?_toDocument, ?_⟩
  refine Option.bind_eq_some_iff.2
    ⟨_, Record.required_of_find? hcontent t.content.ofDocument?_toDocument, ?_⟩
  refine Option.bind_eq_some_iff.2 ⟨_, Record.nullable_text hmigration, ?_⟩
  refine Option.bind_eq_some_iff.2 ⟨_, hchanges, ?_⟩
  refine Option.bind_eq_some_iff.2
    ⟨_, Record.required_of_find? hcreated (Timestamp.ofDocument?_toDocument h.createdAt), ?_⟩
  refine Option.bind_eq_some_iff.2
    ⟨_, Record.required_of_find? hupdated (Timestamp.ofDocument?_toDocument h.updatedAt), ?_⟩
  rfl

theorem ChildTag.format_faithful : ChildTag.format.Faithful ChildTag.IsDated where
  read?_write := by
    intro t h
    exact ChildTag.ofDocument?_of_find? h (Record.ofDocument?_record (by simp)) rfl rfl rfl rfl
      (Record.withDefault_of_find? _ rfl t.changes.ofDocument?_toDocument) rfl rfl
  good_of_read? := by
    intro d t h
    obtain ⟨r, -, h⟩ := Option.bind_eq_some_iff.1 h
    obtain ⟨id, -, h⟩ := Option.bind_eq_some_iff.1 h
    obtain ⟨subscriptionId, -, h⟩ := Option.bind_eq_some_iff.1 h
    obtain ⟨content, -, h⟩ := Option.bind_eq_some_iff.1 h
    obtain ⟨migrationId, -, h⟩ := Option.bind_eq_some_iff.1 h
    obtain ⟨changes, -, h⟩ := Option.bind_eq_some_iff.1 h
    obtain ⟨createdAt, hcreated, h⟩ := Option.bind_eq_some_iff.1 h
    obtain ⟨updatedAt, hupdated, h⟩ := Option.bind_eq_some_iff.1 h
    obtain ⟨dt, -, hcreated⟩ := Option.bind_eq_some_iff.1 hcreated
    obtain ⟨dt', -, hupdated⟩ := Option.bind_eq_some_iff.1 hupdated
    rw [← Option.some.inj h]
    exact ⟨Timestamp.isDate_of_ofDocument? hcreated, Timestamp.isDate_of_ofDocument? hupdated⟩
  isNumberFree_write := by
    intro t
    refine Json.isNumberFree_record fun f hf => ?_
    simp only [List.mem_cons, List.not_mem_nil, or_false] at hf
    rcases hf with rfl | rfl | rfl | rfl | rfl | rfl | rfl
    · rfl
    · rfl
    · exact t.content.isNumberFree_toDocument
    · cases t.migrationId <;> rfl
    · exact t.changes.isNumberFree_toDocument
    · rfl
    · rfl

/-! ## Tables -/

namespace RowFormat.Faithful

variable {α : Type} {f : RowFormat α} {Good : α → Prop}

/-- A table of good rows reads back from its text. -/
theorem decode?_encode (hf : f.Faithful Good) {rows : List α} (h : ∀ a ∈ rows, Good a) :
    f.decode? (f.encode rows) = some rows := by
  have hfree : (Document.array (rows.map f.write)).isNumberFree = true := by
    rw [Document.isNumberFree, Json.areNumberFree_iff]
    intro d hd
    obtain ⟨a, -, rfl⟩ := List.mem_map.1 hd
    exact hf.isNumberFree_write a
  have hrows : (rows.map f.write).mapM f.read? = some rows := by
    have := Json.mapM_map_eq (f := f.write) (g := f.read?) (k := id) fun a ha =>
      hf.read?_write (h a ha)
    rwa [List.map_id] at this
  rw [decode?, encode, Document.ofText?, String.toList_ofList, Document.ofChars?_pretty hfree,
    Option.bind_some, Document.list?, hrows]

/-- The rows that a text decodes to are good. -/
theorem good_of_decode? (hf : f.Faithful Good) {text : String} {rows : List α}
    (h : f.decode? text = some rows) : ∀ a ∈ rows, Good a := by
  obtain ⟨d, -, hd⟩ := Option.bind_eq_some_iff.1 h
  cases d with
  | array items =>
    intro a ha
    obtain ⟨d, -, hd⟩ := Json.exists_of_mem_mapM hd ha
    exact hf.good_of_read? hd
  | _ => cases hd

end RowFormat.Faithful

end CourseBlueprint
