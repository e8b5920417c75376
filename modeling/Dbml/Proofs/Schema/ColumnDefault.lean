import Dbml.Schema.ColumnDefault
import Dbml.Proofs.Data.Untyped

/-!
# Reading column defaults

A default is read from its value, wherever that is presented (`ColumnDefault.reads`). Its tag
comes first, and the members after it are kept as untyped data, from which the rest is
read.
-/

namespace Dbml

open Data
open Json (Number Value)

namespace ColumnDefault

/-- The arguments of an expression. -/
def args : ColumnDefault → List Value
  | .generated _ args => args
  | .string _ | .number _ | .boolean _ | .member _ | .unsupported => []

variable {σ : Type} {m : Type → Type} [Monad m] [Source σ m] [LawfulSource σ m]

/-- After the tag, members are kept as they are. -/
theorem foldlM_readTagged {places : List (m Datum × σ)} {members : List (String × Value)}
    (h : PresentsMembers places members) (hnames : tagName ∉ members.map (·.1)) (kind : Kind)
    (entries : List (Datum × Datum)) :
    places.foldlM readTagged ⟨some kind, entries⟩ =
      pure ⟨some kind, entries ++ Datum.ofMembers members⟩ := by
  rw [presentsMembers_iff] at h
  induction h generalizing entries with
  | nil =>
    rw [Datum.ofMembers, List.append_nil]
    rfl
  | @cons x y _ _ hxy _ ih =>
    obtain ⟨key, c⟩ := x
    obtain ⟨name, v⟩ := y
    obtain ⟨rfl, hc⟩ := hxy
    obtain ⟨hname, hnames⟩ := not_or.mp (List.mem_cons.not.mp hnames)
    have hread : readTagged ⟨some kind, entries⟩ ((pure (.text name) : m Datum), c) =
        pure ⟨some kind, entries ++ [(.text name, Datum.ofValue v)]⟩ := by
      rw [readTagged, pure_bind]
      change (if name = tagName then _ else readTagged.readEntry _ _ _) = _
      rw [if_neg (Ne.symm hname), readTagged.readEntry, hc.datum, pure_bind]
    rw [List.foldlM_cons, hread, pure_bind, ih hnames, List.append_assoc]
    rfl

/-- A default is read as its kind reads the members after the tag. -/
theorem reads_tagged {name : String} {members : List (String × Value)} {d : ColumnDefault}
    (hnames : tagName ∉ members.map (·.1))
    (h : readBody (Kind.ofName name) (Datum.ofValue (.object members)) = .ok d) :
    Reads (σ := σ) ColumnDefault.read (.object ((tagName, .string name) :: members)) d := by
  rintro c ⟨-, -, htagged⟩
  obtain ⟨places, hplaces, hp⟩ := htagged tagName (.taggedRecord typeName)
  obtain ⟨⟨key, c'⟩, rest, ⟨rfl, hc'⟩, hrest, rfl⟩ :=
    List.forall₂_cons_right_iff.mp (presentsMembers_iff.mp hp)
  have hkind : readKind c' = pure (Kind.ofName name) := by
    rw [readKind, hc'.2.1 .variantName, map_pure]
  have htag : readTagged {} ((pure (.text tagName) : m Datum), c') =
      pure ⟨some (Kind.ofName name), []⟩ := by
    rw [readTagged, pure_bind]
    change (readKind c' >>= _) = _
    rw [hkind, pure_bind]
  have hread : ColumnDefault.readMembers (.named ((pure (.text tagName), c') :: rest) (pure ())) =
      (pure (Kind.ofName name, Datum.ofValue (.object members)) : m (Kind × Datum)) := by
    rw [ColumnDefault.readMembers, List.foldlM_cons, htag, pure_bind,
      foldlM_readTagged (presentsMembers_iff.mpr hrest) hnames, pure_bind, pure_bind]
    exact pure_bind _ _
  rw [ColumnDefault.read, hplaces, pure_bind, hread, LawfulSource.place_pure, pure_bind]
  change Data.unplaced (σ := σ) (readBody _ _) = _
  rw [h]
  rfl

/-- The member of a kind that has one, its value. -/
theorem readSingle_ofValue {α : Type} {name : String} {read : Datum → Except Mismatch α} {v : Value}
    {a : α} (h : Reads read v a) :
    readSingle name read (Datum.ofValue (.object [("value", v)])) = .ok a := by
  have hfills : Fills [Slot.ofLens "value" true id (fun _ value => some value) read] none
      [("value", v)] (some a) := Fills.member rfl rfl h rfl
  have hmembers := hfills.readMembers (presents_ofValue (.object [("value", v)]))
    (.variantRecord typeName name)
  rw [readSingle, ← bind_assoc, hmembers]
  rfl

/-- The members of an expression, whose arguments are written only if there are any. -/
theorem readGenerated_ofValue (name : String) {args : List Value} (h : ∀ v ∈ args, v.Ordered) :
    readGenerated (Datum.ofValue (.object (("name", .string name) ::
      if args.isEmpty then [] else [("args", .array args)]))) = .ok (.generated name args) := by
  have hname : Fills generatedSlots {} [("name", .string name)] { name := some name } :=
    Fills.member rfl rfl (reads_text name) rfl
  have hargs : Fills generatedSlots { name := some name }
      (if args.isEmpty then [] else [("args", .array args)])
      { name := some name, args := nonempty args } :=
    Fills.list (GeneratedDraft.mk (some name)) rfl rfl rfl
      (List.forall₂_same.mpr fun v hv => reads_value (h v hv))
  have hmembers := (hname.append hargs).readMembers (presents_ofValue _)
    (.variantRecord typeName "Generated")
  rw [List.singleton_append] at hmembers
  rw [readGenerated, ← bind_assoc, hmembers]
  exact congrArg (Except.ok ∘ ColumnDefault.generated name) (getD_nonempty args)

/-- A default of a kind whose only member is its value. -/
theorem reads_single {α : Type} {tag name : String} {read : Datum → Except Mismatch α}
    {make : α → ColumnDefault} {v : Value} {a : α}
    (hbody : readBody (Kind.ofName tag) = fun body => make <$> readSingle name read body)
    (h : Reads read v a) :
    Reads (σ := σ) ColumnDefault.read (.object [(tagName, .string tag), ("value", v)]) (make a) := by
  refine reads_tagged (show tagName ∉ ["value"] by decide) ?_
  rw [hbody]
  change make <$> readSingle name read _ = _
  rw [readSingle_ofValue h]
  rfl

/-- A default is read from its value. -/
theorem reads (d : ColumnDefault) (h : ∀ v ∈ d.args, v.Ordered) :
    Reads (σ := σ) ColumnDefault.read d.toValue d := by
  cases d with
  | string s => exact reads_single rfl (reads_text s)
  | number n => exact reads_single rfl (reads_number n)
  | boolean b => exact reads_single rfl (reads_bool b)
  | member s => exact reads_single rfl (reads_text s)
  | generated name args =>
    refine reads_tagged ?_ (readGenerated_ofValue name h)
    cases args with
    | nil => exact show tagName ∉ ["name"] by decide
    | cons => exact show tagName ∉ ["name", "args"] by decide
  | unsupported => exact reads_tagged nofun rfl

end ColumnDefault

end Dbml
