import LiveMarkup.Dom.Basic
import Mathlib.Data.List.Nodup

/-!
Attributes by name. Writing to an element leaves every other name alone, and no name comes to stand on
it twice.
-/

namespace LiveMarkup

namespace Content

variable {tag name other value : String} {attributes : List Attribute} {held : Content}

/-- Whether no name stands on an element twice. -/
def Distinct (held : Content) : Prop :=
  (held.attributes.map (·.name)).Nodup

theorem names_setAttribute (held : Content) (name value : String) :
    (held.setAttribute name value).attributes.map (·.name) = held.attributes.map (·.name) ∨
      name ∉ held.attributes.map (·.name) ∧
        (held.setAttribute name value).attributes.map (·.name) =
          held.attributes.map (·.name) ++ [name] := by
  cases held with
  | element tag attributes =>
      rw [setAttribute]
      split
      · refine Or.inl ?_
        simp only [Content.attributes, List.map_map]
        refine List.map_congr_left fun a _ => ?_
        by_cases ha : a.name = name <;> simp [ha]
      · rename_i hnew
        refine Or.inr ⟨fun hmem => hnew ?_, by simp [Content.attributes]⟩
        simpa [Content.attributes] using hmem
  | fragment | text s | comment s => exact Or.inl rfl

theorem Distinct.setAttribute (h : held.Distinct) (name value : String) :
    (held.setAttribute name value).Distinct := by
  rw [Distinct]
  rcases names_setAttribute held name value with hsame | ⟨hnew, hsame⟩ <;> rw [hsame]
  · exact h
  · exact List.nodup_append.mpr ⟨h, List.nodup_singleton _, fun x hx y hy => by
      rw [List.mem_singleton.mp hy]
      rintro rfl
      exact hnew hx⟩

theorem Distinct.eraseAttribute (h : held.Distinct) (name : String) :
    (held.eraseAttribute name).Distinct := by
  cases held with
  | element tag attributes => exact h.sublist ((List.eraseP_sublist).map _)
  | fragment | text s | comment s => exact h

theorem attribute?_setAttribute :
    ((element tag attributes).setAttribute name value).attribute? other =
      if other = name then some value else (element tag attributes).attribute? other := by
  rw [setAttribute]
  split
  · rename_i hany
    have hfind : (attributes.map fun a => if a.name = name then ⟨name, value⟩ else a).find?
        (·.name = other) = (attributes.find? (·.name = other)).map
          fun a => if a.name = name then ⟨name, value⟩ else a := by
      rw [List.find?_map]
      congr 2
      funext a
      by_cases ha : a.name = name <;> simp [ha]
    rw [attribute?, attribute?, Content.attributes, Content.attributes, hfind, Option.map_map]
    cases hfound : attributes.find? (·.name = other) with
    | none =>
        rw [if_neg]
        · rfl
        · rintro rfl
          obtain ⟨a, ha, hname⟩ := List.any_eq_true.mp hany
          exact List.find?_eq_none.mp hfound a ha hname
    | some a =>
        have ha : a.name = other := by simpa using List.find?_some hfound
        by_cases hother : other = name <;> simp [ha, hother]
  · rename_i hany
    rw [attribute?, attribute?, Content.attributes, Content.attributes, List.find?_append]
    by_cases hother : other = name
    · subst hother
      have hnone : attributes.find? (·.name = other) = none :=
        List.find?_eq_none.mpr fun a ha hname => hany (List.any_eq_true.mpr ⟨a, ha, hname⟩)
      simp [hnone]
    · cases attributes.find? (·.name = other) <;> simp [hother, Ne.symm hother]

theorem attribute?_eraseAttribute (h : (element tag attributes).Distinct) :
    ((element tag attributes).eraseAttribute name).attribute? other =
      if other = name then none else (element tag attributes).attribute? other := by
  rw [eraseAttribute, attribute?, attribute?, Content.attributes, Content.attributes]
  rw [Distinct, Content.attributes] at h
  induction attributes with
  | nil => simp
  | cons a rest ih =>
      rw [List.map_cons, List.nodup_cons] at h
      by_cases ha : a.name = name
      · subst ha
        rw [List.eraseP_cons_of_pos (by simp), List.find?_cons]
        by_cases hother : other = a.name
        · subst hother
          rw [if_pos rfl, Option.map_eq_none_iff, List.find?_eq_none]
          intro b hb hname
          exact h.1 (List.mem_map.mpr ⟨b, hb, by simpa using hname⟩)
        · simp [hother, Ne.symm hother]
      · rw [List.eraseP_cons_of_neg (by simpa using ha), List.find?_cons, List.find?_cons]
        by_cases hother : a.name = other
        · simp [hother, hother ▸ ha]
        · simpa [hother] using ih h.2

end Content

end LiveMarkup
