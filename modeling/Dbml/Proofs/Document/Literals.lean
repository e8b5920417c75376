import Dbml.Document
import Dbml.Proofs.Document.Defaults
import Dbml.Proofs.Json.Contents
import Dbml.Proofs.Text.Reading

/-!
# Where the literals of a document end

Free texts stand between quotes, and the name of a project between double quotes. Each of them is
read to its end as long as its own backslashes allow (`quoted_texts_read`). An expression stands
between backticks, and is read to its end iff none is in its name or its arguments
(`expressions_read`).
-/

namespace Dbml

open Json (Value)
open Text (IsLiteral quote readExpression readQuoted)

/-! ## Quoted texts -/

/-- A quoted text is read to its last character, and not beyond it, iff an even number of
backslashes stands before each quote in it and at its end. A reader then gets the text
without the backslashes that take a character, and so the text itself iff it has none. What
follows does not matter. The same is true of the name of a project in its header, with double
quotes. -/
theorem quoted_texts_read :
    (∀ s : String, IsLiteral '\'' s (quote '\'' s).toList) ∧
    ∀ p : Project, ∃ written, p.lines.head? = some ("Project " ++ written ++ " \x7b") ∧
      IsLiteral '"' p.name written.toList :=
  ⟨Text.isLiteral_quote (by decide), fun p => ⟨quote '"' p.name, rfl,
    Text.isLiteral_quote (by decide) p.name⟩⟩

namespace Drive

/-- A backslash at the end takes the delimiter, so that the text goes on without end; one before
a quote takes the backslash that was to take the quote. -/
theorem backslash_unread :
    readQuoted '\'' (quote '\'' "C:\\").toList = none ∧
    readQuoted '\'' (quote '\'' "\\', pk").toList = some (['\\'], ", pk'".toList) ∧
    readQuoted '"' (quote '"' "C:\\" ++ " \x7b").toList = none := by
  refine ⟨?_, ?_, ?_⟩ <;> decide

end Drive

/-! ## Expressions -/

theorem isForeign_backtick : Json.IsForeign '`' := by decide

theorem backtick_mem_separated_iff {vs : List Value} :
    '`' ∈ Text.separated [',', ' '] (vs.map (·.compact)) ↔
      ∃ v ∈ vs, ∃ s ∈ v.strings, '`' ∈ s.toList := by
  induction vs with
  | nil => simp
  | cons v vs ih =>
    simp [ih, Value.toList_compact, Value.mem_chars_iff isForeign_backtick]

theorem backtick_mem_intercalate_iff {vs : List Value} :
    '`' ∈ (", ".intercalate (vs.map (·.compact))).toList ↔
      ∃ v ∈ vs, ∃ s ∈ v.strings, '`' ∈ s.toList := by
  cases vs with
  | nil => simp
  | cons v vs =>
    rw [Value.toList_intercalate_compact, List.mem_append, backtick_mem_separated_iff,
      Value.mem_chars_iff isForeign_backtick]
    simp only [List.mem_cons, exists_eq_or_imp]

/-- The text of an expression has a backtick at either end and is read to the last one, whatever
follows, iff there is none in its name and none in the strings of its arguments, the names of
members included. -/
theorem expressions_read (name : String) (args : List Value) (m : Model) (f : Field) :
    ∃ body, (ColumnDefault.generated name args).render m f = .ok ("`" ++ body ++ "`") ∧
      ('`' ∉ body.toList ↔
        '`' ∉ name.toList ∧ ∀ v ∈ args, ∀ s ∈ v.strings, '`' ∉ s.toList) ∧
      ∀ rest, (∃ t, readExpression (("`" ++ body ++ "`").toList ++ rest) = some (t, rest)) ↔
        '`' ∉ body.toList := by
  let arguments := ", ".intercalate (args.map (·.compact))
  have htext : ColumnDefault.callText name args = "`" ++ (name ++ "(" ++ arguments ++ ")") ++ "`" := by
    rw [← String.toList_inj, ColumnDefault.toList_callText]
    simp [arguments]
  refine ⟨name ++ "(" ++ arguments ++ ")", ?_, ?_, fun rest => ?_⟩
  · rw [← htext]
    rfl
  · simp only [String.toList_append, List.mem_append, arguments, backtick_mem_intercalate_iff]
    simp
  · have hchars (body : String) : ("`" ++ body ++ "`").toList ++ rest =
        '`' :: (body.toList ++ '`' :: rest) := by simp
    rw [hchars]
    exact Text.readExpression_ends_iff

namespace Serial

/-- Its argument is an expression of the database, which quotes a name with backticks. -/
def default : ColumnDefault := .generated "dbgenerated" [.string "concat(`no`)"]

def field : Field := { name := "code", kind := .scalar, type := "String", default := some default }

def model : Model := { name := "Item", fields := [field] }

/-- The expression ends inside of the argument. -/
theorem argument_unread :
    '`' ∉ "dbgenerated".toList ∧
    default.render model field = .ok "`dbgenerated(\"concat(`no`)\")`" ∧
    readExpression "`dbgenerated(\"concat(`no`)\")`".toList =
      some ("dbgenerated(\"concat(".toList, "no`)\")`".toList) := by
  refine ⟨by decide, rfl, ?_⟩
  decide

end Serial

end Dbml
