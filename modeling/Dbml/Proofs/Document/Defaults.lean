import Dbml.Proofs.Document.Attributes
import Dbml.Proofs.Json.Compact
import Dbml.Proofs.Schema.RoundTrip

/-!
# The texts of defaults

A string and a member of an enumeration are quoted alike. Any other two defaults have different
texts (`defaults_unambiguous`): what is quoted, what is written as in JSON and what stands
between backticks start differently (`DefaultText`), and the name and the arguments of an
expression are told apart though either may contain parentheses, quotes and commas.
-/

namespace Dbml

open Json (Number Region Value)
open Text (quote)

/-! ## Texts by how they are written -/

namespace ColumnDefault

/-- The text of a default that is quoted. -/
def quoted? : ColumnDefault → Option String
  | .string value | .member value => some value
  | .number _ | .boolean _ | .generated _ _ | .unsupported => none

/-- The value of a default that is written as in JSON. -/
def scalar? : ColumnDefault → Option Value
  | .number n => some (.number n)
  | .boolean b => some (.bool b)
  | .string _ | .member _ | .generated _ _ | .unsupported => none

variable {d d' : ColumnDefault}

theorem quoted?_inj {value : String} (h : d.quoted? = some value) (h' : d'.quoted? = some value) :
    d = d' ∨ d = .string value ∧ d' = .member value ∨ d = .member value ∧ d' = .string value := by
  cases d <;> cases h <;> cases d' <;> cases h' <;> simp

theorem scalar?_inj {v : Value} (h : d.scalar? = some v) (h' : d'.scalar? = some v) : d = d' := by
  cases d <;> cases h <;> cases d' <;> cases h' <;> rfl

theorem numbers_of_scalar? {v : Value} (h : d.scalar? = some v) : v.numbers = d.numbers := by
  cases d <;> cases h <;> rfl

/-- The text of an expression. -/
def callText (name : String) (args : List Value) : String :=
  "`" ++ name ++ "(" ++ ", ".intercalate (args.map (·.compact)) ++ ")`"

end ColumnDefault

/-- How the text of a default is written. -/
inductive DefaultText : ColumnDefault → String → Prop
  | quoted {d : ColumnDefault} {value : String} : d.quoted? = some value →
    DefaultText d (quote '\'' value)
  | scalar {d : ColumnDefault} {v : Value} : d.scalar? = some v → DefaultText d v.compact
  | call (name : String) (args : List Value) :
    DefaultText (.generated name args) (ColumnDefault.callText name args)

theorem compact_number (n : Number) : (Value.number n).compact = n.text := String.ofList_toList

theorem compact_bool (b : Bool) : (Value.bool b).compact = if b then "true" else "false" := by
  cases b <;> rfl

/-- Every default of a known kind has a text. -/
theorem ColumnDefault.exists_text {d : ColumnDefault} (h : d ≠ .unsupported) :
    ∃ text, d.text? = some text ∧ DefaultText d text := by
  cases d with
  | string value => exact ⟨_, rfl, .quoted rfl⟩
  | member value => exact ⟨_, rfl, .quoted rfl⟩
  | number n => exact ⟨_, congrArg some (compact_number n).symm, .scalar rfl⟩
  | boolean b => exact ⟨_, congrArg some (compact_bool b).symm, .scalar rfl⟩
  | generated name args => exact ⟨_, rfl, .call name args⟩
  | unsupported => exact absurd rfl h

/-! ## What texts start with -/

theorem ColumnDefault.isPlain_of_scalar? {d : ColumnDefault} {v : Value} (h : d.scalar? = some v) :
    IsPlain v.compact := by
  cases d with
  | number n =>
    cases h
    rw [compact_number]
    exact isPlain_number n
  | boolean b =>
    cases h
    rw [compact_bool]
    exact isPlain_boolean b
  | _ => cases h

theorem not_isPlain_quote (value : String) : ¬ IsPlain (quote '\'' value) := by
  intro h
  refine (h '\'' ?_).1 rfl
  rw [Text.toList_quote]
  exact List.mem_cons_self

theorem ColumnDefault.toList_callText (name : String) (args : List Value) :
    (callText name args).toList = '`' :: (name.toList ++ '(' ::
      (", ".intercalate (args.map (·.compact))).toList ++ [')', '`']) := by
  simp [callText]

theorem not_isPlain_callText (name : String) (args : List Value) :
    ¬ IsPlain (ColumnDefault.callText name args) := by
  intro h
  refine (h '`' ?_).2 rfl
  rw [ColumnDefault.toList_callText]
  exact List.mem_cons_self

theorem quote_ne_callText (value name : String) (args : List Value) :
    quote '\'' value ≠ ColumnDefault.callText name args := by
  intro h
  replace h := congrArg String.toList h
  rw [Text.toList_quote, ColumnDefault.toList_callText] at h
  cases h

/-! ## Expressions -/

/-- The parenthesis before the arguments is the one after which the text is closed. -/
theorem callText_inj {name name' : String} {args args' : List Value}
    (hn : Json.WordIntegers args) (hn' : Json.WordIntegers args')
    (h : ColumnDefault.callText name args = ColumnDefault.callText name' args') :
    name = name' ∧ args = args' := by
  replace h := congrArg String.toList h
  rw [ColumnDefault.toList_callText, ColumnDefault.toList_callText] at h
  have hparts := List.append_cancel_right (List.cons.inj h).2
  obtain ⟨hname, hargs⟩ := Region.parenthesis_inj (Value.closed_intercalate_compact args)
    (Value.closed_intercalate_compact args') hparts
  exact ⟨String.toList_inj.mp hname,
    Value.intercalate_compact_inj hn hn' (String.toList_inj.mp hargs)⟩

/-! ## All defaults -/

namespace DefaultText

variable {d d' : ColumnDefault} {text : String}

theorem eq (h : DefaultText d text) (h' : DefaultText d' text)
    (hn : ∀ n ∈ d.numbers, n.IsWordInteger) (hn' : ∀ n ∈ d'.numbers, n.IsWordInteger) :
    d = d' ∨ ∃ value, d = .string value ∧ d' = .member value ∨
      d = .member value ∧ d' = .string value := by
  generalize ht : text = text' at h'
  cases h with
  | quoted hq =>
    cases h' with
    | quoted hq' =>
      obtain rfl := Text.quote_inj (by decide) ht
      exact (ColumnDefault.quoted?_inj hq hq').imp_right fun h => ⟨_, h⟩
    | scalar hs' => exact absurd (ht ▸ ColumnDefault.isPlain_of_scalar? hs') (not_isPlain_quote _)
    | call => exact absurd ht (quote_ne_callText _ _ _)
  | scalar hs =>
    cases h' with
    | quoted => exact absurd (ht ▸ ColumnDefault.isPlain_of_scalar? hs) (not_isPlain_quote _)
    | scalar hs' =>
      rw [← ColumnDefault.numbers_of_scalar? hs] at hn
      rw [← ColumnDefault.numbers_of_scalar? hs'] at hn'
      obtain rfl := Value.compact_inj hn hn' ht
      exact .inl (ColumnDefault.scalar?_inj hs hs')
    | call => exact absurd (ht ▸ ColumnDefault.isPlain_of_scalar? hs) (not_isPlain_callText _ _)
  | call name args =>
    cases h' with
    | quoted => exact absurd ht.symm (quote_ne_callText _ _ _)
    | scalar hs' =>
      exact absurd (ht ▸ ColumnDefault.isPlain_of_scalar? hs') (not_isPlain_callText _ _)
    | call name' args' =>
      obtain ⟨rfl, rfl⟩ := callText_inj (List.forall_mem_flatMap.mp hn)
        (List.forall_mem_flatMap.mp hn') ht
      exact .inl rfl

end DefaultText

/-- Every default of a known kind has a text. If the numbers of two of them are integers of a
word, their texts are equal only if the defaults are, or if they are a string and a member of an
enumeration with the same value. Names of expressions are arbitrary, and so are the JSON values
that are their arguments. -/
theorem defaults_unambiguous {d d' : ColumnDefault} (hd : d ≠ .unsupported)
    (hd' : d' ≠ .unsupported) (hn : ∀ n ∈ d.numbers, n.IsWordInteger)
    (hn' : ∀ n ∈ d'.numbers, n.IsWordInteger) (m m' : Model) (f f' : Field) :
    ∃ text text', d.render m f = .ok text ∧ d'.render m' f' = .ok text' ∧
      (text = text' ↔ d = d' ∨ ∃ value, d = .string value ∧ d' = .member value ∨
        d = .member value ∧ d' = .string value) := by
  obtain ⟨text, ht, hwritten⟩ := ColumnDefault.exists_text hd
  obtain ⟨text', ht', hwritten'⟩ := ColumnDefault.exists_text hd'
  refine ⟨text, text', ColumnDefault.render_eq_ok_iff.mpr ht,
    ColumnDefault.render_eq_ok_iff.mpr ht', fun h => ?_, fun h => ?_⟩
  · subst h
    exact hwritten.eq hwritten' hn hn'
  · refine Option.some.inj (ht.symm.trans (Eq.trans ?_ ht'))
    rcases h with rfl | ⟨value, ⟨rfl, rfl⟩ | ⟨rfl, rfl⟩⟩ <;> rfl

/-! ## A name that starts an argument -/

namespace Imitation

/-- The text of the only argument opens a parenthesis. -/
def argument : ColumnDefault := .generated "concat" [.string "(1"]

/-- The name goes on with a quote, as if its argument were part of a text. -/
def name : ColumnDefault := .generated "concat(\"" [.number (.integer 1)]

def field : Field := { name := "label", kind := .scalar, type := "String" }

def model : Model := { name := "Tag", fields := [field] }

theorem texts_differ :
    ∃ text text', argument.render model field = .ok text ∧ name.render model field = .ok text' ∧
      text ≠ text' := by
  have hargument : argument ≠ .unsupported := nofun
  have hname : name ≠ .unsupported := nofun
  obtain ⟨text, text', ht, ht', hiff⟩ :=
    defaults_unambiguous hargument hname (by decide) (by decide) model model field field
  refine ⟨text, text', ht, ht', fun h => ?_⟩
  rcases hiff.mp h with heq | ⟨value, ⟨h, -⟩ | ⟨h, -⟩⟩
  · exact absurd (ColumnDefault.generated.inj heq).1 (by decide)
  · cases h
  · cases h

end Imitation

end Dbml
