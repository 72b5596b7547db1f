import CourseBlueprint.Save.Locks

/-!
# Migration identifiers

A migration identifier is the marker, the identifier of a template, and the digest of the name of its
content, the last two with 32 digits each. So under one marker it tells the template and the digest
(`Template.migrationId_inj`). The name of the content is that of its kind and an identifier. An underscore
divides the two and also occurs in the names of kinds, but what stands behind it always has 32 characters:
the name can be read as that of one key only (`ContentKey.ReadFrom.unique`).
`Template.migrationId_separates` puts this together, with any text as the marker.
-/

namespace CourseBlueprint

/-! ## Names of content -/

namespace ContentKey

variable {k k' : ContentKey} {text : String}

/-- Whether a text can be read as a key: as the name of its kind, an underscore, and 32 digits of either
case that give its identifier. -/
def ReadFrom (k : ContentKey) (text : String) : Prop :=
  ∃ cs, text = k.kind.name ++ "_" ++ String.ofList cs ∧ Uuid.ofDigits? cs = some k.id

theorem readFrom_assetName (k : ContentKey) : k.ReadFrom k.assetName :=
  ⟨k.id.digits, rfl, k.id.ofDigits?_digits⟩

theorem length_of_ofDigits? {cs : List Char} {id : Uuid} (h : Uuid.ofDigits? cs = some id) :
    cs.length = 32 := by
  unfold Uuid.ofDigits? at h
  split at h
  · assumption
  · cases h

/-- No text can be read as two keys. The digits are as many in both, so the names of the kinds end at the
same place. -/
theorem ReadFrom.unique (h : k.ReadFrom text) (h' : k'.ReadFrom text) : k = k' := by
  obtain ⟨cs, htext, hid⟩ := h
  obtain ⟨cs', htext', hid'⟩ := h'
  have hchars := congrArg String.toList (htext.symm.trans htext')
  simp only [String.toList_append, String.toList_ofList] at hchars
  obtain ⟨hname, rfl⟩ := List.append_inj' hchars
    ((length_of_ofDigits? hid).trans (length_of_ofDigits? hid').symm)
  have hkind : k.kind = k'.kind :=
    Kind.name_inj (String.toList_inj.1 (List.append_cancel_right hname))
  have hsame : k.id = k'.id := Option.some.inj (hid.symm.trans hid')
  obtain ⟨kind, id⟩ := k
  obtain ⟨kind', id'⟩ := k'
  rw [show kind = kind' from hkind, show id = id' from hsame]

end ContentKey

/-! ## Migration identifiers -/

/-- Blueprint content with the same migration identifier belongs to the same template and has the same
digest. -/
theorem Template.migrationId_inj {t t' : Template} {marker : String} {k k' : ContentKey}
    (h : t.migrationId marker k = t'.migrationId marker k') :
    t.id = t'.id ∧ Uuid.derived t.id k.assetName = Uuid.derived t'.id k'.assetName := by
  have hchars := congrArg String.toList h
  unfold migrationId Uuid.simple at hchars
  simp only [String.toList_append, String.toList_ofList, List.append_assoc] at hchars
  have hrest := List.append_cancel_left hchars
  have hlength : t.id.digits.length = t'.id.digits.length := by
    rw [Uuid.length_digits, Uuid.length_digits]
  obtain ⟨hid, hrest⟩ := List.append_inj hrest hlength
  have hdigest := List.append_cancel_left hrest
  exact ⟨Uuid.digits_inj hid, Uuid.digits_inj hdigest⟩

/-! ## Copies -/

/-- The migration identifiers of a blueprint carry the marker. -/
theorem Settings.marks_migrationId (settings : Settings) (t : Template) (content : ContentKey) :
    settings.marks (t.migrationId settings.marker content) = true := by
  unfold marks Template.migrationId
  rw [String.append_assoc, String.append_assoc, String.toList_append, List.isPrefixOf_iff_prefix]
  exact List.prefix_append _ _

/-- Under one marker, migration identifiers are the same exactly for templates of one identifier in which
the names of the content have one digest. These names are different for different keys, and none of them
can be read as another key. What carries a migration identifier is a copy, also if the marker is empty. -/
theorem Template.migrationId_separates (marker : String) (t t' : Template) (k k' : ContentKey) :
    (t.migrationId marker k = t'.migrationId marker k' ↔
      t.id = t'.id ∧ Uuid.derived t.id k.assetName = Uuid.derived t.id k'.assetName) ∧
    (k.assetName = k'.assetName ↔ k = k') ∧ (k'.ReadFrom k.assetName ↔ k = k') ∧
    ∀ (b : Rulebook) (i : Item),
      b.isCopy { i with migrationId := some (t.migrationId b.settings.marker k) } = true := by
  have hread : k'.ReadFrom k.assetName ↔ k = k' := by
    constructor
    · exact k.readFrom_assetName.unique
    · rintro rfl
      exact k.readFrom_assetName
  refine ⟨⟨fun h => ?_, ?_⟩, ⟨fun h => ?_, ?_⟩, hread, fun b i => ?_⟩
  · obtain ⟨hid, hdigest⟩ := migrationId_inj h
    rw [← hid] at hdigest
    exact ⟨hid, hdigest⟩
  · rintro ⟨hid, hdigest⟩
    unfold migrationId
    rw [← hid, hdigest]
  · exact hread.1 (h ▸ k'.readFrom_assetName)
  · rintro rfl
    rfl
  · exact b.settings.marks_migrationId t k

end CourseBlueprint
