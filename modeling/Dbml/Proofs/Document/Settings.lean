import Dbml.Document.Table
import Dbml.Proofs.Traversal

/-!
# The settings of a column

What a default adds to the settings of a column depends on its kind alone
(`DefaultSettings`), and the settings are those in a fixed order around it
(`columnSettings_eq_ok_iff`).
-/

namespace Dbml

/-- The settings that a default comes with, before and after the constraints. -/
inductive DefaultSettings : Option ColumnDefault → List Setting → List Setting → Prop
  | absent : DefaultSettings none [] []
  | increment {d : ColumnDefault} : d.isAutoincrement = true →
    DefaultSettings (some d) [.increment] []
  | generated {d : ColumnDefault} {text : String} : d.isAutoincrement = false →
    d.isGenerated = true → d.text? = some text → DefaultSettings (some d) [.default text] []
  | literal {d : ColumnDefault} {text : String} : d.isAutoincrement = false →
    d.isGenerated = false → d.text? = some text → DefaultSettings (some d) [] [.default text]

theorem ColumnDefault.render_eq_ok_iff {m : Model} {f : Field} {d : ColumnDefault} {text : String} :
    d.render m f = .ok text ↔ d.text? = some text := by
  unfold render
  cases d.text? <;> simp

theorem defaultSettings_eq_ok_iff {m : Model} {f : Field} {before after : List Setting} :
    defaultSettings m f = .ok (before, after) ↔ DefaultSettings f.default before after := by
  unfold defaultSettings
  rcases f.default with _ | d
  · constructor
    · rintro ⟨⟩
      exact .absent
    · rintro ⟨⟩
      rfl
  · by_cases ha : d.isAutoincrement
    · simp only [ha, if_true]
      constructor
      · rintro ⟨⟩
        exact .increment ha
      · rintro (_ | _ | ⟨h, -⟩ | ⟨h, -⟩)
        · rfl
        all_goals exact absurd ha (ne_true_of_eq_false h)
    · have hf := eq_false_of_ne_true ha
      simp only [hf, Bool.false_eq_true, if_false, bind_eq_ok_iff,
        ColumnDefault.render_eq_ok_iff]
      constructor
      · rintro ⟨text, ht, h⟩
        by_cases hg : d.isGenerated
        · rw [if_pos hg] at h
          cases h
          exact .generated hf hg ht
        · rw [if_neg hg] at h
          cases h
          exact .literal hf (eq_false_of_ne_true hg) ht
      · rintro (_ | h | ⟨-, hg, ht⟩ | ⟨-, hg, ht⟩)
        · exact absurd h ha
        · exact ⟨_, ht, by rw [if_pos hg]; rfl⟩
        · exact ⟨_, ht, by rw [hg]; rfl⟩

/-- The settings in their order. -/
theorem columnSettings_eq_ok_iff {m : Model} {f : Field} {settings : List Setting} :
    columnSettings m f = .ok settings ↔ ∃ before after, DefaultSettings f.default before after ∧
      settings = settingIf f.isId .pk ++ before ++
        settingIf (f.isUnique && !f.isId) .unique ++
        settingIf (f.isRequired && !f.isId) .notNull ++ after ++
        ((noteOf f.documentation).map .note).toList := by
  simp only [columnSettings, bind_eq_ok_iff, Prod.exists, defaultSettings_eq_ok_iff]
  constructor
  · rintro ⟨before, after, hd, h⟩
    exact ⟨before, after, hd, (Except.ok.inj h).symm⟩
  · rintro ⟨before, after, hd, rfl⟩
    exact ⟨before, after, hd, rfl⟩

end Dbml
