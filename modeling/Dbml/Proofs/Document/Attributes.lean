import Dbml.Proofs.Document.Settings
import Dbml.Proofs.Json.Printed
import Dbml.Proofs.Text.Quoted
import Dbml.Proofs.Text.Splitting

/-!
# The text of the settings of a column

The list between the brackets is a comma after each setting, and the free texts in it may
contain commas and settings of their own. It still tells the settings apart
(`Arranged.attributesText_inj`), by their arrangement. Keywords come first, and are read
from the left. The free texts are in the last settings (`Ending`): an expression stands
alone among them except for a note, so what follows it is read from the right, and of
quoted texts the last one starts where a quote follows a blank.
-/

namespace Dbml

open Text

/-! ## Settings after commas -/

/-- A setting without a value. -/
def Setting.IsKeyword : Setting → Prop
  | .pk | .increment | .unique | .notNull => True
  | .default _ | .note _ => False

/-- No other setting starts with a keyword. -/
theorem Setting.text_inj_of_isKeyword {s s' : Setting} (hs : s.IsKeyword) {r r' : List Char}
    (h : s.text.toList ++ r = s'.text.toList ++ r') : s = s' ∧ r = r' := by
  cases s <;> first | exact hs.elim | (cases s' <;> simp_all [text])

/-- Settings, each after a comma and a blank. -/
def settingChars (settings : List Setting) : List Char :=
  separated [',', ' '] (settings.map Setting.text)

/-- The note at the end, if there is one. -/
def noteSettings (note : Option String) : List Setting := (note.map .note).toList

@[simp] theorem settingChars_nil : settingChars [] = [] := rfl

theorem settingChars_cons (s : Setting) (rest : List Setting) :
    settingChars (s :: rest) = ',' :: ' ' :: (s.text.toList ++ settingChars rest) := rfl

theorem settingChars_append (xs ys : List Setting) :
    settingChars (xs ++ ys) = settingChars xs ++ settingChars ys := by
  rw [settingChars, List.map_append, separated_append]
  rfl

@[simp] theorem settingChars_noNote : settingChars (noteSettings none) = [] := rfl

theorem settingChars_note (note : String) :
    settingChars (noteSettings (some note)) =
      [',', ' ', 'n', 'o', 't', 'e', ':'] ++ ' ' :: (quote '\'' note).toList := by
  simp [noteSettings, settingChars, Setting.text]

@[simp] theorem settingChars_settingIf_false (s : Setting) :
    settingChars (settingIf false s) = [] := rfl

/-- A note is told from what stands before it, unless that ends in a quote too. -/
theorem append_note_inj {xs ys : List Char} {n n' : Option String}
    (hx : xs.getLast? ≠ some '\'') (hy : ys.getLast? ≠ some '\'')
    (h : xs ++ settingChars (noteSettings n) = ys ++ settingChars (noteSettings n')) :
    xs = ys ∧ n = n' := by
  have hlast (n : Option String) (hn : settingChars (noteSettings n) ≠ []) :
      (settingChars (noteSettings n)).getLast? = some '\'' := by
    cases n with
    | none => exact absurd rfl hn
    | some t => simp [settingChars_note, toList_quote, List.getLast?_cons]
  have hiff := append_ending_iff hx hy (hlast n) (hlast n') h
  cases n with
  | none =>
    cases n' with
    | none => exact ⟨List.append_cancel_right h, rfl⟩
    | some t' => simp [settingChars_note] at hiff
  | some t =>
    cases n' with
    | none => simp [settingChars_note] at hiff
    | some t' =>
      rw [settingChars_note, settingChars_note, ← List.append_assoc, ← List.append_assoc] at h
      obtain ⟨hxy, rfl⟩ := append_quote_inj (by decide) (by decide) h
      exact ⟨List.append_cancel_right hxy, rfl⟩

/-- A setting that is there under a condition is told by its last character. -/
theorem append_settingIf_inj {xs ys : List Char} {s : Setting} {p q : Bool} {c : Char}
    (hs : s.text.toList.getLast? = some c) (hx : xs.getLast? ≠ some c)
    (hy : ys.getLast? ≠ some c)
    (h : xs ++ settingChars (settingIf p s) = ys ++ settingChars (settingIf q s)) :
    xs = ys ∧ p = q := by
  have hlast (p : Bool) (hp : settingChars (settingIf p s) ≠ []) :
      (settingChars (settingIf p s)).getLast? = some c := by
    cases p with
    | false => exact absurd rfl hp
    | true => simp [settingIf, settingChars_cons, List.getLast?_cons, hs]
  have hiff := append_ending_iff hx hy (hlast p) (hlast q) h
  obtain rfl : p = q := by
    cases p <;> cases q <;> simp [settingIf, settingChars_cons] at hiff ⊢
  exact ⟨List.append_cancel_right h, rfl⟩

/-! ## The last settings -/

/-- No quote and no backtick. -/
def IsPlain (s : String) : Prop := ∀ c ∈ s.toList, c ≠ '\'' ∧ c ≠ '`'

instance (s : String) : Decidable (IsPlain s) := List.decidableBAll _ _

theorem IsPlain.head? {s : String} (h : IsPlain s) {c : Char} (hc : c = '\'' ∨ c = '`')
    (note : Option String) : (s.toList ++ settingChars (noteSettings note)).head? ≠ some c := by
  rcases hs : s.toList with _ | ⟨c', cs⟩
  · cases note with
    | none => simp
    | some t =>
      rw [settingChars_note]
      rcases hc with rfl | rfl <;> simp
  · have hc' := h c' (by rw [hs]; exact List.mem_cons_self)
    rintro ⟨⟩
    exact hc.elim hc'.1 hc'.2

theorem IsPlain.getLast? {s : String} (h : IsPlain s) : s.toList.getLast? ≠ some '\'' :=
  fun hs => (h _ (List.mem_of_getLast? hs)).1 rfl

/-- The last settings: a default, if any, with what may stand after one of its kind. -/
inductive Ending : List Setting → Prop
  | noted (note : Option String) : Ending (noteSettings note)
  | quoted (value : String) (note : Option String) :
    Ending (.default (quote '\'' value) :: noteSettings note)
  | plain {text : String} (h : IsPlain text) (note : Option String) :
    Ending (.default text :: noteSettings note)
  | expression (body : String) (unique notNull : Bool) (note : Option String) :
    Ending (.default ("`" ++ body ++ "`") :: (settingIf unique .unique ++
      settingIf notNull .notNull ++ noteSettings note))

/-- A quoted default is told from the note, which starts after the last blank before a quote. -/
theorem quoted_note_inj {v v' : String} {n n' : Option String}
    (h : settingChars (.default (quote '\'' v) :: noteSettings n) =
      settingChars (.default (quote '\'' v') :: noteSettings n')) : v = v' ∧ n = n' := by
  have hdefault (v : String) (n : Option String) :
      settingChars (.default (quote '\'' v) :: noteSettings n) =
        [',', ' ', 'd', 'e', 'f', 'a', 'u', 'l', 't', ':'] ++
          ' ' :: (quote '\'' v).toList ++ settingChars (noteSettings n) := by
    simp [settingChars, Setting.text]
  rw [hdefault, hdefault] at h
  cases n with
  | none =>
    cases n' with
    | none =>
      simp only [settingChars_noNote, List.append_nil] at h
      exact ⟨(append_quote_inj (by decide) (by decide) h).2, rfl⟩
    | some t' =>
      rw [settingChars_noNote, List.append_nil, settingChars_note, ← List.append_assoc] at h
      cases (append_quote_inj (by decide) (by decide) h).1
  | some t =>
    rw [settingChars_note, ← List.append_assoc] at h
    cases n' with
    | none =>
      rw [settingChars_noNote, List.append_nil] at h
      cases (append_quote_inj (by decide) (by decide) h).1
    | some t' =>
      rw [settingChars_note, ← List.append_assoc] at h
      obtain ⟨hv, rfl⟩ := append_quote_inj (by decide) (by decide) h
      have hv := List.append_cancel_right hv
      exact ⟨(append_quote_inj (by decide) (by decide) hv).2, rfl⟩

/-- What follows an expression, read from the right: each ends in a letter of its own. -/
theorem expression_inj {e e' : List Char} {u u' k k' : Bool} {n n' : Option String}
    (he : e.getLast? = some '`') (he' : e'.getLast? = some '`')
    (h : e ++ settingChars (settingIf u .unique ++ settingIf k .notNull ++ noteSettings n) =
      e' ++ settingChars (settingIf u' .unique ++ settingIf k' .notNull ++ noteSettings n')) :
    e = e' ∧ u = u' ∧ k = k' ∧ n = n' := by
  have hunique {e : List Char} (he : e.getLast? = some '`') (u : Bool) :
      (e ++ settingChars (settingIf u .unique)).getLast? = some (if u then 'e' else '`') := by
    cases u <;> simp [settingIf, settingChars, Setting.text, he]
  have hnotNull {e : List Char} (he : e.getLast? = some '`') (u k : Bool) :
      (e ++ settingChars (settingIf u .unique) ++ settingChars (settingIf k .notNull)).getLast? =
        some (if k then 'l' else if u then 'e' else '`') := by
    cases k with
    | false => rw [settingChars_settingIf_false, List.append_nil, hunique he]; rfl
    | true => simp [settingIf, settingChars, Setting.text]
  have hquote (u k : Bool) : some (if k then 'l' else if u then 'e' else '`') ≠ some '\'' := by
    cases u <;> cases k <;> decide
  have hl (u : Bool) : some (if u then 'e' else '`') ≠ some 'l' := by cases u <;> decide
  -- first the note, then the constraints from the last one on
  simp only [settingChars_append, ← List.append_assoc] at h
  obtain ⟨hrest, hn⟩ := append_note_inj (hnotNull he u k ▸ hquote u k)
    (hnotNull he' u' k' ▸ hquote u' k') h
  obtain ⟨hrest, hk⟩ := append_settingIf_inj (s := .notNull) (c := 'l') (by decide)
    (hunique he u ▸ hl u) (hunique he' u' ▸ hl u') hrest
  obtain ⟨hrest, hu⟩ := append_settingIf_inj (s := .unique) (c := 'e') (by decide)
    (by rw [he]; decide) (by rw [he']; decide) hrest
  exact ⟨hrest, hu, hk, hn⟩

theorem settingChars_default (text : String) (rest : List Setting) :
    settingChars (.default text :: rest) =
      [',', ' ', 'd', 'e', 'f', 'a', 'u', 'l', 't', ':', ' '] ++
        (text.toList ++ settingChars rest) := by
  simp [settingChars, Setting.text]

theorem settingChars_default_inj {t t' : String} {rest rest' : List Setting}
    (h : settingChars (.default t :: rest) = settingChars (.default t' :: rest')) :
    t.toList ++ settingChars rest = t'.toList ++ settingChars rest' := by
  rw [settingChars_default, settingChars_default] at h
  exact List.append_cancel_left h

theorem head?_quote (value : String) (cs : List Char) :
    ((quote '\'' value).toList ++ cs).head? = some '\'' := by
  rw [toList_quote]
  rfl

theorem head?_expression (body : String) (cs : List Char) :
    (("`" ++ body ++ "`").toList ++ cs).head? = some '`' := by
  simp

/-- Quoted texts, plain ones and expressions start differently. -/
theorem settingChars_default_ne {t t' : String} {rest rest' : List Setting}
    (h : (t.toList ++ settingChars rest).head? ≠ (t'.toList ++ settingChars rest').head?) :
    settingChars (.default t :: rest) ≠ settingChars (.default t' :: rest') :=
  fun heq => h (congrArg List.head? (settingChars_default_inj heq))

theorem quoted_ne_plain {value text : String} (ht : IsPlain text) {rest : List Setting}
    {note : Option String} : settingChars (.default (quote '\'' value) :: rest) ≠
      settingChars (.default text :: noteSettings note) := by
  refine settingChars_default_ne ?_
  rw [head?_quote]
  exact (ht.head? (.inl rfl) note).symm

theorem expression_ne_plain {body text : String} (ht : IsPlain text) {rest : List Setting}
    {note : Option String} : settingChars (.default ("`" ++ body ++ "`") :: rest) ≠
      settingChars (.default text :: noteSettings note) := by
  refine settingChars_default_ne ?_
  rw [head?_expression]
  exact (ht.head? (.inr rfl) note).symm

theorem quoted_ne_expression {value body : String} {rest rest' : List Setting} :
    settingChars (.default (quote '\'' value) :: rest) ≠
      settingChars (.default ("`" ++ body ++ "`") :: rest') := by
  refine settingChars_default_ne ?_
  rw [head?_quote, head?_expression]
  decide

theorem note_ne_default {note : Option String} {text : String} {rest : List Setting} :
    settingChars (noteSettings note) ≠ settingChars (.default text :: rest) := by
  cases note <;> simp [settingChars_note, settingChars_default]

namespace Ending

variable {xs ys : List Setting}

theorem eq (hx : Ending xs) (hy : Ending ys) (h : settingChars xs = settingChars ys) :
    xs = ys := by
  have hlast (body : String) : ("`" ++ body ++ "`").toList.getLast? = some '`' := by
    simp [List.getLast?_cons]
  cases hx with
  | noted n =>
    cases hy with
    | noted n' =>
      have h : [] ++ settingChars (noteSettings n) = [] ++ settingChars (noteSettings n') := h
      obtain ⟨-, rfl⟩ := append_note_inj (by decide) (by decide) h
      rfl
    | quoted | plain | expression => exact absurd h note_ne_default
  | quoted v n =>
    cases hy with
    | noted => exact absurd h.symm note_ne_default
    | quoted v' n' =>
      obtain ⟨rfl, rfl⟩ := quoted_note_inj h
      rfl
    | plain ht => exact absurd h (quoted_ne_plain ht)
    | expression => exact absurd h quoted_ne_expression
  | plain ht n =>
    cases hy with
    | noted => exact absurd h.symm note_ne_default
    | quoted => exact absurd h.symm (quoted_ne_plain ht)
    | plain ht' n' =>
      obtain ⟨htext, rfl⟩ := append_note_inj ht.getLast? ht'.getLast? (settingChars_default_inj h)
      rw [String.toList_inj.mp htext]
    | expression => exact absurd h.symm (expression_ne_plain ht)
  | expression body unique notNull n =>
    cases hy with
    | noted => exact absurd h.symm note_ne_default
    | quoted => exact absurd h.symm quoted_ne_expression
    | plain ht' => exact absurd h (expression_ne_plain ht')
    | expression =>
      obtain ⟨htext, rfl, rfl, rfl⟩ :=
        expression_inj (hlast _) (hlast _) (settingChars_default_inj h)
      rw [String.toList_inj.mp htext]

theorem not_isKeyword {s : Setting} {rest : List Setting} (h : Ending (s :: rest)) :
    ¬ s.IsKeyword := by
  generalize hs : s :: rest = settings at h
  cases h with
  | noted note =>
    cases note with
    | none => cases hs
    | some t =>
      cases hs
      exact id
  | quoted | plain | expression =>
    cases hs
    exact id

end Ending

/-! ## Keywords before the last settings -/

/-- Keywords before the last settings. -/
inductive Arranged : List Setting → Prop
  | ending {settings : List Setting} : Ending settings → Arranged settings
  | keyword {s : Setting} {rest : List Setting} : s.IsKeyword → Arranged rest → Arranged (s :: rest)

namespace Arranged

variable {xs ys : List Setting}

/-- The text of settings tells what they are. -/
theorem eq (hx : Arranged xs) (hy : Arranged ys) (h : settingChars xs = settingChars ys) :
    xs = ys := by
  have hmixed {s : Setting} {rest settings : List Setting} (hs : s.IsKeyword)
      (he : Ending settings) : settingChars (s :: rest) ≠ settingChars settings := by
    intro h
    cases settings with
    | nil => cases h
    | cons s' rest' =>
      obtain ⟨rfl, -⟩ := Setting.text_inj_of_isKeyword hs (List.cons.inj (List.cons.inj h).2).2
      exact he.not_isKeyword hs
  induction hx generalizing ys with
  | ending hx =>
    cases hy with
    | ending hy => exact hx.eq hy h
    | keyword hs hy => exact absurd h.symm (hmixed hs hx)
  | keyword hs hx ih =>
    cases hy with
    | ending hy => exact absurd h (hmixed hs hy)
    | keyword hs' hy =>
      obtain ⟨rfl, hrest⟩ :=
        Setting.text_inj_of_isKeyword hs (List.cons.inj (List.cons.inj h).2).2
      rw [ih hy hrest]

theorem settingIf {p : Bool} {s : Setting} (hs : s.IsKeyword) (h : Arranged xs) :
    Arranged (settingIf p s ++ xs) := by
  cases p with
  | false => exact h
  | true => exact .keyword hs h

end Arranged

/-! ## The settings of a column -/

theorem isPlain_number (n : Json.Number) : IsPlain n.text := fun c hc =>
  ⟨(n.isNumberText c hc).ne (by decide), (n.isNumberText c hc).ne (by decide)⟩

theorem isPlain_boolean (b : Bool) : IsPlain (if b then "true" else "false") := by
  cases b <;> decide

/-- A literal is quoted or plain. -/
theorem ColumnDefault.quoted_or_isPlain {d : ColumnDefault} {text : String}
    (hd : d.isGenerated = false) (h : d.text? = some text) :
    (∃ value, text = quote '\'' value) ∨ IsPlain text := by
  cases d with
  | string value | member value => exact .inl ⟨value, (Option.some.inj h).symm⟩
  | number value =>
    obtain rfl := Option.some.inj h
    exact .inr (isPlain_number value)
  | boolean value =>
    obtain rfl := Option.some.inj h
    exact .inr (isPlain_boolean value)
  | generated => cases hd
  | unsupported => cases h

theorem ColumnDefault.exists_expression {d : ColumnDefault} {text : String}
    (hd : d.isGenerated = true) (h : d.text? = some text) : ∃ body, text = "`" ++ body ++ "`" := by
  cases d with
  | generated name args =>
    obtain rfl := Option.some.inj h
    refine ⟨name ++ "(" ++ ", ".intercalate (args.map (·.compact)) ++ ")", ?_⟩
    rw [← String.toList_inj]
    simp
  | _ => cases hd

theorem arranged_of_columnSettings {m : Model} {f : Field} {settings : List Setting}
    (h : columnSettings m f = .ok settings) : Arranged settings := by
  obtain ⟨before, after, hd, rfl⟩ := columnSettings_eq_ok_iff.mp h
  simp only [List.append_assoc]
  refine Arranged.settingIf trivial ?_
  generalize f.default = d at hd
  cases hd with
  | absent => exact .settingIf trivial (.settingIf trivial (.ending (.noted _)))
  | increment _ =>
    exact .keyword trivial (.settingIf trivial (.settingIf trivial (.ending (.noted _))))
  | generated _ hg ht =>
    obtain ⟨body, rfl⟩ := ColumnDefault.exists_expression hg ht
    have he := Ending.expression body (f.isUnique && !f.isId) (f.isRequired && !f.isId)
      (noteOf f.documentation)
    rw [List.append_assoc] at he
    exact .ending he
  | literal _ hg ht =>
    refine .settingIf trivial (.settingIf trivial (.ending ?_))
    obtain ⟨value, rfl⟩ | hp := ColumnDefault.quoted_or_isPlain hg ht
    · exact .quoted value _
    · exact .plain hp _

/-- The comma before the first setting is missing. -/
theorem toList_attributesText_cons (s : Setting) (rest : List Setting) :
    (attributesText (s :: rest)).toList =
      ' ' :: '[' :: (s.text.toList ++ settingChars rest ++ [']']) := by
  have h : attributesText (s :: rest) =
      " [" ++ ", ".intercalate (s.text :: rest.map Setting.text) ++ "]" := rfl
  rw [h, String.toList_append, String.toList_append, toList_intercalate_cons]
  rfl

theorem Arranged.attributesText_inj {xs ys : List Setting} (hx : Arranged xs) (hy : Arranged ys)
    (h : attributesText xs = attributesText ys) : xs = ys := by
  refine hx.eq hy ?_
  replace h := congrArg String.toList h
  cases xs with
  | nil =>
    cases ys with
    | nil => rfl
    | cons y ys =>
      rw [toList_attributesText_cons] at h
      cases h
  | cons x xs =>
    cases ys with
    | nil =>
      rw [toList_attributesText_cons] at h
      cases h
    | cons y ys =>
      rw [toList_attributesText_cons, toList_attributesText_cons] at h
      rw [settingChars_cons, settingChars_cons,
        List.append_cancel_right (List.cons.inj (List.cons.inj h).2).2]

/-- Of columns whose settings have one text, in whichever models, the settings are the same and
in the same order, with the same text of a default and the same note. There is no condition on
notes, on strings or on the names and arguments of expressions. -/
theorem settings_unambiguous {m m' : Model} {f f' : Field} {xs ys : List Setting}
    (hx : columnSettings m f = .ok xs) (hy : columnSettings m' f' = .ok ys)
    (h : attributesText xs = attributesText ys) : xs = ys :=
  (arranged_of_columnSettings hx).attributesText_inj (arranged_of_columnSettings hy) h

namespace Annotated

/-- A note that looks like the end of a list of settings. -/
def note : String := "first', not null, note: 'second"

/-- An expression whose argument looks like the end of the expression and a further setting. -/
def marked : ColumnDefault := .generated "uuid" [.string "`, not null"]

/-- What identifies the rows needs no constraints. -/
def constrained : Field where
  name := "id"
  kind := .scalar
  type := "Int"
  isId := true
  isUnique := true
  isRequired := true
  default := some marked
  documentation := some note

def unconstrained : Field where
  name := "key"
  kind := .scalar
  type := "String"
  isId := true
  default := some marked
  documentation := some note

def users : Model := { name := "User", fields := [constrained] }

def tags : Model := { name := "Tag", fields := [unconstrained] }

/-- What both columns show. -/
def text : String :=
  " [pk, default: `uuid(\"`, not null\")`, note: 'first\\', not null, note: \\'second']"

theorem settings_eq :
    ∃ xs ys, columnSettings users constrained = .ok xs ∧
      columnSettings tags unconstrained = .ok ys ∧
      xs = [.pk, .default "`uuid(\"`, not null\")`", .note note] ∧
      attributesText xs = text ∧ attributesText ys = text ∧ xs = ys := by
  have hx : columnSettings users constrained =
      .ok [.pk, .default "`uuid(\"`, not null\")`", .note note] := rfl
  have hy : columnSettings tags unconstrained =
      .ok [.pk, .default "`uuid(\"`, not null\")`", .note note] := rfl
  have htext : attributesText [.pk, .default "`uuid(\"`, not null\")`", .note note] = text := rfl
  exact ⟨_, _, hx, hy, rfl, htext, htext, settings_unambiguous hx hy rfl⟩

end Annotated

/-! ## One line -/

/-- The free texts in a default are on one line. -/
def ColumnDefault.OneLine : ColumnDefault → Prop
  | .string value | .member value => Text.OneLine value
  | .generated name _ => Text.OneLine name
  | .number _ | .boolean _ | .unsupported => True

theorem ColumnDefault.OneLine.text {d : ColumnDefault} (hd : d.OneLine) {text : String}
    (h : d.text? = some text) : Text.OneLine text := by
  cases d with
  | string value | member value =>
    obtain rfl := Option.some.inj h
    exact hd.quote (by decide)
  | number value =>
    obtain rfl := Option.some.inj h
    exact fun hc => (value.isNumberText _ hc).ne (by decide) rfl
  | boolean value =>
    obtain rfl := Option.some.inj h
    cases value <;> decide
  | generated name args =>
    obtain rfl := Option.some.inj h
    have hargs : Text.OneLine (", ".intercalate (args.map (·.compact))) :=
      .intercalate (by decide) (List.forall_mem_map.mpr fun v _ => v.oneLine_compact)
    simp only [oneLine_append]
    exact ⟨⟨⟨⟨by decide, hd⟩, by decide⟩, hargs⟩, by decide⟩
  | unsupported => cases h

theorem Setting.IsKeyword.oneLine {s : Setting} (hs : s.IsKeyword) : Text.OneLine s.text := by
  cases s <;> first | exact hs.elim | decide

theorem DefaultSettings.oneLine {d : Option ColumnDefault} {before after : List Setting}
    (h : DefaultSettings d before after) (hd : ∀ x ∈ d, x.OneLine) :
    ∀ s ∈ before ++ after, Text.OneLine s.text := by
  have hdefault {x : ColumnDefault} {text : String} (hx : x ∈ d) (ht : x.text? = some text) :
      Text.OneLine (Setting.default text).text :=
    oneLine_append.mpr ⟨by decide, (hd x hx).text ht⟩
  cases h with
  | absent => nofun
  | increment _ => exact List.forall_mem_singleton.mpr (by decide)
  | generated _ _ ht => exact List.forall_mem_singleton.mpr (hdefault rfl ht)
  | literal _ _ ht => exact List.forall_mem_singleton.mpr (hdefault rfl ht)

theorem oneLine_settingIf {p : Bool} {s : Setting} (hs : s.IsKeyword) :
    ∀ s' ∈ settingIf p s, Text.OneLine s'.text := by
  cases p with
  | false => nofun
  | true => exact List.forall_mem_singleton.mpr hs.oneLine

/-- Where its free texts are on one line, so are the settings of a column. -/
theorem oneLine_of_columnSettings {m : Model} {f : Field} {settings : List Setting}
    (h : columnSettings m f = .ok settings) (hd : ∀ d ∈ f.default, d.OneLine)
    (hn : ∀ text ∈ f.documentation, Text.OneLine text) :
    ∀ s ∈ settings, Text.OneLine s.text := by
  obtain ⟨before, after, hsettings, rfl⟩ := columnSettings_eq_ok_iff.mp h
  obtain ⟨hbefore, hafter⟩ := List.forall_mem_append.mp (hsettings.oneLine hd)
  have hnote : ∀ s ∈ noteSettings (noteOf f.documentation), Text.OneLine s.text := by
    intro s hs
    obtain ⟨text, ht, rfl⟩ := Option.map_eq_some_iff.mp (Option.mem_toList.mp hs)
    have hone := (hn text (Option.filter_eq_some_iff.mp ht).1).quote (d := '\'') (by decide)
    exact oneLine_append.mpr ⟨by decide, hone⟩
  simp only [List.forall_mem_append]
  exact ⟨⟨⟨⟨⟨oneLine_settingIf trivial, hbefore⟩, oneLine_settingIf trivial⟩,
    oneLine_settingIf trivial⟩, hafter⟩, hnote⟩

theorem oneLine_attributesText {settings : List Setting}
    (h : ∀ s ∈ settings, Text.OneLine s.text) : Text.OneLine (attributesText settings) := by
  cases settings with
  | nil => decide
  | cons s rest =>
    have hlist : Text.OneLine (", ".intercalate ((s :: rest).map Setting.text)) :=
      .intercalate (by decide) (List.forall_mem_map.mpr h)
    exact oneLine_append.mpr ⟨oneLine_append.mpr ⟨by decide, hlist⟩, by decide⟩

end Dbml
