import Dbml.Proofs.Document.Settings
import Dbml.Proofs.Json.Integers
import Dbml.Proofs.Json.Presented
import Dbml.Proofs.Schema.ColumnDefault

/-!
# Defaults that are integers

A default that is a number is read from a document with the literal of the number. What is read is
what the literal stands for (`ColumnDefault.read_numberText`), so an integer is written as it was
read iff it is one of a word (`integer_defaults`).
-/

namespace Dbml

open Json (IsIntegerLiteral Literal Number Tree)

namespace ColumnDefault

/-- The text of a default that is a number, given the literal of the number. -/
def numberText (literal : String) : String :=
  "\x7b\"kind\":\"number\",\"value\":" ++ literal ++ "\x7d"

/-- What such a text is scanned as. -/
def numberTree (literal : Literal) : Tree :=
  .object [(.text tagName, .string (.text "number")), (.text "value", .number literal)] .closed

theorem toList_numberText (literal : String) : (numberText literal).toList =
    '\x7b' :: '"' :: (tagName.toList.flatMap Json.escapeChar ++ '"' :: ':' ::
      '"' :: ("number".toList.flatMap Json.escapeChar ++ '"' :: ',' :: '"' ::
        ("value".toList.flatMap Json.escapeChar ++ '"' :: ':' ::
          (literal.toList ++ ['\x7d'])))) := by
  unfold numberText
  simp [tagName, Json.escapeChar]

/-- Where the literal is that of an integer. -/
theorem scan_numberText (n : Int) :
    Tree.scan (numberText (Number.integerText n)).toList = (numberTree (.ofInteger n), false) := by
  have hempty : ∀ c ∈ ([] : List Char), Json.isBlank c = true := List.forall_mem_nil _
  have hstop : Text.Stops Json.ContinuesNumber ['\x7d'] := Text.stops_cons.mpr (by decide)
  obtain ⟨fuel, hfuel⟩ : ∃ fuel,
      Tree.fuelFor (numberText (Number.integerText n)).toList = fuel + 6 := by
    rw [Tree.fuelFor, toList_numberText, List.length_cons]
    exact ⟨_, (Nat.sub_add_cancel (by omega)).symm⟩
  -- from the closing brace to the opening one
  have hclose : Tree.scanMembers (fuel + 1) false ['\x7d'] = ([], .closed, []) :=
    Tree.scanMembers_close hempty fuel false
  have hvalue : Tree.scanMember (fuel + 2) ("value".toList.flatMap Json.escapeChar ++ '"' :: ':' ::
      ((Number.integerText n).toList ++ ['\x7d'])) =
        ([(.text "value", .number (.ofInteger n))], .closed, []) :=
    Tree.scanMember_eq (Tree.scanValue_integerText n fuel hstop) hclose
  rw [← Tree.scanMembers_comma hempty] at hvalue
  have hkind : Tree.scanMember (fuel + 4) (tagName.toList.flatMap Json.escapeChar ++ '"' :: ':' ::
      '"' :: ("number".toList.flatMap Json.escapeChar ++ '"' :: ',' :: '"' ::
        ("value".toList.flatMap Json.escapeChar ++ '"' :: ':' ::
          ((Number.integerText n).toList ++ ['\x7d'])))) =
      ([(.text tagName, .string (.text "number")), (.text "value", .number (.ofInteger n))],
        .closed, []) :=
    Tree.scanMember_eq (Tree.scanValue_string "number" (fuel + 2) _) hvalue
  rw [← Tree.scanMembers_first hempty] at hkind
  have hobject : Tree.scanValue (fuel + 6) (numberText (Number.integerText n)).toList =
      (numberTree (.ofInteger n), []) := by
    rw [toList_numberText, Tree.scanValue, Json.skipBlanks_cons rfl]
    exact congrArg (fun scanned => (Tree.object scanned.1 scanned.2.1, scanned.2.2)) hkind
  rw [Tree.scan, hfuel, hobject]
  rfl

/-- A literal that stands for nothing is a fault. -/
theorem read_numberTree {l : Literal} {fault : Json.Malformed} (h : l.value = .error fault) :
    ColumnDefault.read (⟨numberTree l, Json.maxDepth⟩ : Json.Place) =
      Json.lift (.error fault) := by
  let place (tree : Tree) : Json.Place := ⟨tree, Json.maxDepth - 1⟩
  let kind : Except Json.Error Data.Datum × Json.Place :=
    (.ok (.text tagName), place (.string (.text "number")))
  let value : Except Json.Error Data.Datum × Json.Place :=
    (.ok (.text "value"), place (.number l))
  have hdatum : Data.Source.datum (place (.number l)) =
      (Json.lift (.error fault) : Except Json.Error Data.Datum) := by
    change Json.lift (Data.Datum.number <$> l.value) = _
    rw [h]
    rfl
  have hvalue : readTagged ⟨some .number, []⟩ value = Json.lift (.error fault) := by
    change (Data.Source.datum (place (.number l)) >>= _) = _
    rw [hdatum]
    rfl
  have hread : readMembers (.named [kind, value] (.ok ())) = Json.lift (.error fault) := by
    change (readTagged ⟨some .number, []⟩ value >>= _) >>= _ = _
    rw [hvalue]
    rfl
  change (readMembers (.named [kind, value] (.ok ())) >>= _) = _
  rw [hread]
  rfl

/-- The text is read as what the literal stands for, or fails as that does. -/
theorem read_numberText (n : Int) :
    Json.read ColumnDefault.read (numberText (Number.integerText n)) =
      Json.lift (ColumnDefault.number <$> (Literal.ofInteger n).value) := by
  rcases hvalue : (Literal.ofInteger n).value? with _ | x
  · have hfault : (Literal.ofInteger n).value = .error .numberOutOfRange := by
      rw [Literal.value, hvalue]
    rw [Json.read, scan_numberText, hfault]
    change (ColumnDefault.read _ >>= _) = _
    rw [read_numberTree hfault]
    rfl
  · have hnumber : (Literal.ofInteger n).value = .ok x := by
      rw [Literal.value, hvalue]
    have htree : (numberTree (.ofInteger n)).value? = some (ColumnDefault.number x).toValue := by
      simp [numberTree, Tree.value?, Tree.members?, hvalue, toValue, toMembers]
    rw [hnumber]
    exact Json.read_eq (ColumnDefault.reads (.number x) (List.forall_mem_nil _))
      (show 1 < Json.maxDepth by decide) ⟨_, scan_numberText n, htree⟩

theorem read_isWord {n : Int} (h : Number.IsWord n) :
    Json.read ColumnDefault.read (numberText (Number.integerText n)) =
      .ok (.number (.integer n)) := by
  rw [read_numberText, Literal.value, Literal.value?_ofInteger h]
  rfl

/-- Any other integer is out of range, or is read as a binary64 number. -/
theorem read_of_not_isWord {n : Int} (h : ¬ Number.IsWord n) :
    Json.read ColumnDefault.read (numberText (Number.integerText n)) =
        .error (.malformed .numberOutOfRange) ∨
      ∃ x, Json.read ColumnDefault.read (numberText (Number.integerText n)) =
        .ok (.number (.float x)) := by
  obtain ⟨x, hx⟩ := Literal.exists_value?_of_not_isWord h
  rw [read_numberText, Literal.value, hx]
  cases x with
  | none => exact .inl rfl
  | some x => exact .inr ⟨x, rfl⟩

end ColumnDefault

/-- Every literal of an integer is the text of one. A default that is a number with this literal
is read, and written with the same literal again, iff the integer is one of a word, signed or
unsigned. Beyond that the number is out of range, or it is read as a binary64 number and
written as this is. -/
theorem integer_defaults {literal : String} (h : IsIntegerLiteral literal) (m : Model) (f : Field) :
    ∃ n, literal = Number.integerText n ∧
      ((∃ d, Json.read ColumnDefault.read (ColumnDefault.numberText literal) = .ok d ∧
        d.render m f = .ok literal) ↔ Number.IsWord n) ∧
      (¬ Number.IsWord n →
        Json.read ColumnDefault.read (ColumnDefault.numberText literal) =
            .error (.malformed .numberOutOfRange) ∨
          ∃ x, Json.read ColumnDefault.read (ColumnDefault.numberText literal) =
              .ok (.number (.float x)) ∧
            (ColumnDefault.number (.float x)).render m f = .ok x.writeBounded) := by
  obtain ⟨n, rfl⟩ := Json.isIntegerLiteral_iff.mp h
  refine ⟨n, rfl, ⟨?_, fun hn => ⟨_, ColumnDefault.read_isWord hn, rfl⟩⟩, fun hn => ?_⟩
  · rintro ⟨d, hd, hrender⟩
    by_contra hn
    rcases ColumnDefault.read_of_not_isWord hn with hfault | ⟨x, hx⟩
    · rw [hd] at hfault
      cases hfault
    · obtain rfl := Except.ok.inj (hd.symm.trans hx)
      exact Number.text_float_ne x n (Except.ok.inj hrender)
  · exact (ColumnDefault.read_of_not_isWord hn).imp_right fun ⟨x, hx⟩ => ⟨x, hx, rfl⟩

namespace Ledger

def field : Field := { name := "limit", kind := .scalar, type := "BigInt" }

def model : Model := { name := "Account", fields := [field] }

/-- The greatest integer that is kept. -/
theorem greatest_kept :
    IsIntegerLiteral "18446744073709551615" ∧ ∃ d,
      Json.read ColumnDefault.read (ColumnDefault.numberText "18446744073709551615") = .ok d ∧
        d.render model field = .ok "18446744073709551615" := by
  have hliteral : IsIntegerLiteral "18446744073709551615" :=
    Json.isIntegerLiteral_iff.mpr ⟨18446744073709551615, by decide⟩
  obtain ⟨n, hn, hkept, -⟩ := integer_defaults hliteral model field
  have hvalue : n = 18446744073709551615 :=
    Number.integerText_injective (hn.symm.trans (by decide))
  exact ⟨hliteral, hkept.mpr (hvalue ▸ by decide)⟩

/-- The next one is read as a binary64 number, and one of 310 digits is out of range. -/
theorem greater_not_kept :
    (IsIntegerLiteral "18446744073709551616" ∧ ∃ d,
      Json.read ColumnDefault.read (ColumnDefault.numberText "18446744073709551616") = .ok d ∧
        d.render model field = .ok "1.8446744073709552e+19") ∧
    IsIntegerLiteral (Number.integerText (10 ^ 309)) ∧
      Json.read ColumnDefault.read (ColumnDefault.numberText (Number.integerText (10 ^ 309))) =
        .error (.malformed .numberOutOfRange) := by
  have hliteral : "18446744073709551616" = Number.integerText 18446744073709551616 := by decide
  let rounded : Binary64 := ⟨false, 4503599627370496, 12⟩
  have hvalue : (Literal.ofInteger 18446744073709551616).value = .ok (.float rounded) := by
    decide +kernel
  have htext : rounded.writeBounded = "1.8446744073709552e+19" := by decide +kernel
  have hfault : (Literal.ofInteger (10 ^ 309)).value = .error .numberOutOfRange := by
    decide +kernel
  refine ⟨⟨Json.isIntegerLiteral_iff.mpr ⟨_, hliteral⟩, .number (.float rounded), ?_,
    congrArg Except.ok htext⟩, Json.isIntegerLiteral_iff.mpr ⟨_, rfl⟩, ?_⟩
  · rw [hliteral, ColumnDefault.read_numberText, hvalue]
    rfl
  · rw [ColumnDefault.read_numberText, hfault]
    rfl

end Ledger

end Dbml
