import CourseBlueprint.Json.Value

/-!
# Equality of values

`Json.same` is an equivalence: values are compared part by part, and numbers as `Number.same` does,
for which the two zeros of binary64 are one number.
-/

namespace CourseBlueprint.Json

/-! ## Numbers -/

theorem Number.same_refl (n : Number) : n.same n = true := by
  cases n with
  | whole n fits => exact decide_eq_true rfl
  | real bits => rw [same, beq_self_eq_true, Bool.true_or]

theorem Number.same_symm {m n : Number} (h : m.same n = true) : n.same m = true := by
  cases m with
  | whole m fits =>
    cases n with
    | whole n fits' => exact decide_eq_true (of_decide_eq_true h).symm
    | real b => cases h
  | real a =>
    cases n with
    | whole n fits => cases h
    | real b =>
      rw [same, Bool.or_eq_true, beq_iff_eq, Bool.and_eq_true] at h ⊢
      rcases h with h | ⟨ha, hb⟩
      · exact .inl h.symm
      · exact .inr ⟨hb, ha⟩

theorem Number.same_trans {l m n : Number} (h : l.same m = true) (h' : m.same n = true) :
    l.same n = true := by
  cases l with
  | whole l fits =>
    cases m with
    | whole m fits =>
      cases n with
      | whole n fits =>
        exact decide_eq_true ((of_decide_eq_true h).trans (of_decide_eq_true h'))
      | real c => cases h'
    | real b => cases h
  | real a =>
    cases m with
    | whole m fits => cases h
    | real b =>
      cases n with
      | whole n fits => cases h'
      | real c =>
        rw [same, Bool.or_eq_true, beq_iff_eq, Bool.and_eq_true] at h h' ⊢
        rcases h with rfl | ⟨ha, hb⟩
        · exact h'
        · rcases h' with rfl | ⟨-, hc⟩
          · exact .inr ⟨ha, hb⟩
          · exact .inr ⟨ha, hc⟩

/-! ## Values -/

mutual

theorem same_refl (v : Json) : v.same v = true := by
  cases v with
  | null => rfl
  | bool b => rw [same, beq_self_eq_true]
  | number n => rw [same, n.same_refl]
  | string s => rw [same, decide_eq_true rfl]
  | array items => rw [same, sameItems_refl items]
  | object fields => rw [same, sameFields_refl fields]

theorem sameItems_refl (items : List Json) : sameItems items items = true := by
  cases items with
  | nil => rfl
  | cons v items => rw [sameItems, same_refl v, sameItems_refl items, Bool.and_self]

theorem sameFields_refl (fields : List (String × Json)) : sameFields fields fields = true := by
  match fields with
  | [] => rfl
  | (key, v) :: fields =>
    rw [sameFields, same_refl v, sameFields_refl fields, decide_eq_true rfl, Bool.and_self,
      Bool.and_self]

end

mutual

theorem same_symm {v w : Json} (h : v.same w = true) : w.same v = true := by
  cases v with
  | null =>
    cases w with
    | null => exact h
    | _ => cases h
  | bool b =>
    cases w with
    | bool c => rw [same, beq_iff_eq] at h ⊢; exact h.symm
    | _ => cases h
  | number n =>
    cases w with
    | number m => rw [same] at h ⊢; exact Number.same_symm h
    | _ => cases h
  | string s =>
    cases w with
    | string t => rw [same, decide_eq_true_eq] at h ⊢; exact h.symm
    | _ => cases h
  | array items =>
    cases w with
    | array items' => rw [same] at h ⊢; exact sameItems_symm h
    | _ => cases h
  | object fields =>
    cases w with
    | object fields' => rw [same] at h ⊢; exact sameFields_symm h
    | _ => cases h

theorem sameItems_symm {vs ws : List Json} (h : sameItems vs ws = true) :
    sameItems ws vs = true := by
  match vs, ws with
  | [], [] => rfl
  | [], _ :: _ => cases h
  | _ :: _, [] => cases h
  | v :: vs, w :: ws =>
    rw [sameItems, Bool.and_eq_true] at h ⊢
    exact ⟨same_symm h.1, sameItems_symm h.2⟩

theorem sameFields_symm {vs ws : List (String × Json)} (h : sameFields vs ws = true) :
    sameFields ws vs = true := by
  match vs, ws with
  | [], [] => rfl
  | [], _ :: _ => cases h
  | _ :: _, [] => cases h
  | (j, v) :: vs, (k, w) :: ws =>
    rw [sameFields, Bool.and_eq_true, Bool.and_eq_true, decide_eq_true_eq] at h ⊢
    exact ⟨⟨h.1.1.symm, same_symm h.1.2⟩, sameFields_symm h.2⟩

end

mutual

theorem same_trans {u v w : Json} (h : u.same v = true) (h' : v.same w = true) :
    u.same w = true := by
  cases v with
  | null => cases u <;> first | exact h' | cases h
  | bool b =>
    cases u with
    | bool a => rw [same, beq_iff_eq] at h; rw [h]; exact h'
    | _ => cases h
  | number m =>
    cases u with
    | number l =>
      cases w with
      | number n => rw [same] at h h' ⊢; exact Number.same_trans h h'
      | _ => cases h'
    | _ => cases h
  | string s =>
    cases u with
    | string r => rw [same, decide_eq_true_eq] at h; rw [h]; exact h'
    | _ => cases h
  | array items =>
    cases u with
    | array us =>
      cases w with
      | array ws => rw [same] at h h' ⊢; exact sameItems_trans h h'
      | _ => cases h'
    | _ => cases h
  | object fields =>
    cases u with
    | object us =>
      cases w with
      | object ws => rw [same] at h h' ⊢; exact sameFields_trans h h'
      | _ => cases h'
    | _ => cases h

theorem sameItems_trans {us vs ws : List Json} (h : sameItems us vs = true)
    (h' : sameItems vs ws = true) : sameItems us ws = true := by
  match us, vs, ws with
  | [], [], _ => exact h'
  | [], _ :: _, _ => cases h
  | _ :: _, [], _ => cases h
  | _ :: _, _ :: _, [] => cases h'
  | u :: us, v :: vs, w :: ws =>
    rw [sameItems, Bool.and_eq_true] at h h' ⊢
    exact ⟨same_trans h.1 h'.1, sameItems_trans h.2 h'.2⟩

theorem sameFields_trans {us vs ws : List (String × Json)} (h : sameFields us vs = true)
    (h' : sameFields vs ws = true) : sameFields us ws = true := by
  match us, vs, ws with
  | [], [], _ => exact h'
  | [], _ :: _, _ => cases h
  | _ :: _, [], _ => cases h
  | _ :: _, _ :: _, [] => cases h'
  | (i, u) :: us, (j, v) :: vs, (k, w) :: ws =>
    rw [sameFields, Bool.and_eq_true, Bool.and_eq_true, decide_eq_true_eq] at h h' ⊢
    exact ⟨⟨h.1.1.trans h'.1.1, same_trans h.1.2 h'.1.2⟩, sameFields_trans h.2 h'.2⟩

end

/-- Values that are the same are the same texts. -/
theorem isText_congr {v w : Json} (h : v.same w = true) (text : String) :
    v.isText text = w.isText text := by
  cases v with
  | string s =>
    cases w with
    | string s' => rw [show s = s' from of_decide_eq_true h]
    | _ => cases h
  | _ =>
    cases w with
    | string s' => cases h
    | _ => rfl

/-- What is the same as a text is that text. -/
theorem isText_of_same {v : Json} {text : String} (h : v.same (.string text) = true) :
    v.isText text = true := by
  rw [isText_congr h]
  exact decide_eq_true rfl

/-- Only null is the same as null. -/
theorem null_same_eq_false {v : Json} : null.same v = false ↔ v ≠ .null := by
  cases v with
  | null => simp [same]
  | _ => simp [same]

end CourseBlueprint.Json
