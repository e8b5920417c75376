import Dbml.Proofs.Data.Untyped
import Dbml.Proofs.Yaml.Nodes
import Dbml.Yaml.Source

/-!
# Values in YAML documents

A place at the node of a value presents this value, if the value is not nested deeper than the
place allows (`presents_ofValue`). So what is read from a value is read from its compact text by
the rules of YAML too (`read_compact`).
-/

namespace Dbml.Yaml

open Data (Datum Expected Mismatch Presents)
open Json (Number Value)

instance : Data.LawfulSource Place Reading where
  place_pure _ _ := rfl

theorem mapM_eq_pure {m : Type → Type} [Monad m] [LawfulMonad m] {α β : Type} {f : α → m β}
    {xs : List α} {ys : List β} (h : List.Forall₂ (fun x y => f x = pure y) xs ys) :
    xs.mapM f = pure ys := by
  induction h with
  | nil => rfl
  | cons hx _ ih => rw [List.mapM_cons, hx, pure_bind, ih, pure_bind]

/-- What holds of all elements, whatever their index, holds of them with their indices. -/
theorem forall₂_zipIdx {α β γ : Type} {R : β × Nat → γ → Prop} {f : α → β} {g : α → γ}
    (xs : List α) (h : ∀ x ∈ xs, ∀ i, R (f x, i) (g x)) (n : Nat) :
    List.Forall₂ R ((xs.map f).zipIdx n) (xs.map g) := by
  induction xs generalizing n with
  | nil => exact .nil
  | cons x xs ih =>
    obtain ⟨hx, hxs⟩ := List.forall_mem_cons.mp h
    exact .cons (hx n) (ih hxs (n + 1))

namespace Place

variable {document : Anchored} {path : Path} {depth : Nat} {v : Value}

/-- The place of a value in a document. -/
def ofValue (document : Anchored) (path : Path) (depth : Nat) (v : Value) : Place :=
  ⟨document, some (Linked.ofValue v), path, depth⟩

theorem resolved_ofValue (v : Value) :
    (ofValue document path depth v).resolved = pure (ofValue document path depth v) := by
  cases v <;> rfl

/-! ## Untyped data -/

theorem resolve_number {n : Number} (h : n.IsWordInteger) :
    resolve none n.text .plain = .ok (.number n) := by
  cases n with
  | integer n => exact congrArg Except.ok (resolvePlain_integerText h)
  | float => exact h.elim

theorem datumOf_scalar (e : Expected) (text : String) (style : Style) :
    datumOf document e depth path (.scalar none text style) =
      liftM (scalarDatum e path (resolve none text style)) := by
  rw [datumOf, ownDatum]
  · cases depth <;> rfl
  · intro target hcontra
    cases hcontra

theorem datumOf_sequence {items : List Linked} {data : List Datum} (e : Expected)
    (h : (items.zipIdx.mapM fun (item, i) =>
      datumOf document .anything depth (.index path i) item) = pure data) :
    datumOf document e (depth + 1) path (.sequence none items) = pure (.sequence data) := by
  rw [datumOf, ownDatum]
  · change Datum.sequence <$> (items.zipIdx.mapM _) = _
    rw [h, map_pure]
  · intro target hcontra
    cases hcontra

theorem datumOf_mapping {entries : List (Linked × Linked)} {data : List (Datum × Datum)}
    (e : Expected)
    (h : (entries.mapM fun (key, value) => do
      let k ← datumOf document .anything depth path key
      let v ← datumOf document .anything depth (keyPath path key) value
      return (k, v)) = pure data) :
    datumOf document e (depth + 1) path (.mapping none entries) = pure (.map data) := by
  rw [datumOf, ownDatum]
  · change Datum.map <$> (entries.mapM _) = _
    rw [h, map_pure]
  · intro target hcontra
    cases hcontra

theorem datumOf_ofValue (document : Anchored) (h : ∀ n ∈ v.numbers, n.IsWordInteger) (e : Expected)
    (hd : v.nesting ≤ depth) (path : Path) :
    datumOf document e depth path (Linked.ofValue v) = pure (Datum.ofValue v) := by
  induction v using Value.induction generalizing e depth path with
  | null => exact datumOf_scalar e _ _
  | bool b => cases b <;> exact datumOf_scalar e _ _
  | number n =>
    rw [Linked.ofValue, datumOf_scalar, resolve_number (h n List.mem_cons_self)]
    rfl
  | string s => exact datumOf_scalar e _ _
  | array items ih =>
    obtain ⟨hpos, hitems⟩ := Value.nesting_array_lt.mp (Nat.lt_succ_of_le hd)
    obtain ⟨depth, rfl⟩ : ∃ n, depth = n + 1 := ⟨depth - 1, by omega⟩
    rw [Value.numbers_array] at h
    rw [Linked.ofValue, Linked.ofItems_eq, Datum.ofValue, Data.ofItems_eq]
    refine datumOf_sequence e (mapM_eq_pure (forall₂_zipIdx items (fun v hv i => ?_) 0))
    exact ih v hv (fun n hn => h n (List.mem_flatMap.mpr ⟨v, hv, hn⟩)) .anything
      (Nat.le_of_lt_succ (hitems v hv)) _
  | object members ih =>
    obtain ⟨hpos, hmembers⟩ := Value.nesting_object_lt.mp (Nat.lt_succ_of_le hd)
    obtain ⟨depth, rfl⟩ : ∃ n, depth = n + 1 := ⟨depth - 1, by omega⟩
    rw [Value.numbers_object] at h
    rw [Linked.ofValue, Linked.ofMembers_eq, Datum.ofValue, Data.ofMembers_eq]
    refine datumOf_mapping e (mapM_eq_pure ?_)
    rw [List.forall₂_map_left_iff, List.forall₂_map_right_iff, List.forall₂_same]
    intro m hm
    have hkey : datumOf document .anything depth path (.scalar none m.1 .quoted) =
        pure (Datum.text m.1) := datumOf_scalar _ _ _
    have hvalue := ih m hm (fun n hn => h n (List.mem_flatMap.mpr ⟨m, hm, hn⟩)) .anything
      (Nat.le_of_lt_succ (hmembers m hm)) (keyPath path (.scalar none m.1 .quoted))
    simp only [hkey, pure_bind, hvalue]

/-! ## Places -/

theorem optional_ofValue (h : ∀ n ∈ v.numbers, n.IsWordInteger) (hv : v ≠ .null) :
    (ofValue document path depth v).optional = pure (some (ofValue document path depth v)) := by
  rw [optional, resolved_ofValue, pure_bind]
  cases v with
  | null => exact absurd rfl hv
  | bool b => cases b <;> rfl
  | number n =>
    have hn := h n List.mem_cons_self
    cases n with
    | integer n =>
      have hsome : isNothing none (Number.integerText n) .plain = .ok false :=
        congrArg Except.ok (isNullOrEmpty_integerText n)
      change ((isNothing none (Number.integerText n) .plain).mapError (Error.mismatch none) :
        Reading Bool) >>= _ = _
      rw [hsome]
      rfl
    | float => exact hn.elim
  | string | array | object => rfl

/-- The members of an object, with keys that are read as texts. -/
theorem presents_named {members : List (String × Value)} (readKey : Place → Reading Datum)
    (hkey : ∀ name, readKey (child (ofValue document path (depth + 1) (.object members)) depth path
      (.scalar none name .quoted)) = pure (Datum.text name))
    (h : ∀ m ∈ members, Presents (ofValue document (.key path m.1) depth m.2) m.2) :
    ∃ places, named (ofValue document path (depth + 1) (.object members)) depth readKey
        (Linked.ofMembers members) = .named places (pure ()) ∧
      Data.PresentsMembers places members := by
  refine ⟨_, rfl, ?_⟩
  rw [Data.presentsMembers_iff, Linked.ofMembers_eq, List.map_map, List.forall₂_map_left_iff,
    List.forall₂_same]
  exact fun m hm => ⟨hkey m.1, h m hm⟩

/-- The place of a value presents it. -/
theorem presents_ofValue (document : Anchored) (h : ∀ n ∈ v.numbers, n.IsWordInteger)
    (hd : v.nesting ≤ depth) (path : Path) : Presents (ofValue document path depth v) v := by
  have hdatum := datumOf_ofValue document h .anything hd path
  induction v using Value.induction generalizing depth path with
  | null => exact ⟨rfl, hdatum⟩
  | bool b => exact ⟨⟨optional_ofValue h nofun, hdatum⟩, by cases b <;> rfl⟩
  | number n => exact ⟨optional_ofValue h nofun, hdatum⟩
  | string s =>
    refine ⟨⟨optional_ofValue h nofun, hdatum⟩, fun _ => rfl, fun α recognise a ha => ?_⟩
    change ((recognise s).mapError (fault path) : Reading α) = _
    rw [ha]
    rfl
  | array items ih =>
    obtain ⟨hpos, hitems⟩ := Value.nesting_array_lt.mp (Nat.lt_succ_of_le hd)
    obtain ⟨depth, rfl⟩ : ∃ n, depth = n + 1 := ⟨depth - 1, by omega⟩
    refine ⟨⟨optional_ofValue h nofun, hdatum⟩, itemsOf
      ((ofValue document path (depth + 1) (.array items)).elements depth (Linked.ofItems items)),
      rfl, rfl, ?_⟩
    rw [Data.presentsItems_iff, itemsOf, elements, Linked.ofItems_eq, List.forall₂_map_left_iff]
    have hplaces := forall₂_zipIdx (R := fun x v => Presents
      (child (ofValue document path (depth + 1) (.array items)) depth (.index path x.2) x.1) v)
      (f := Linked.ofValue) (g := id) items (fun v hv i => ?_) 0
    · rwa [List.map_id] at hplaces
    · rw [Value.numbers_array] at h
      have hnumbers := fun n hn => h n (List.mem_flatMap.mpr ⟨v, hv, hn⟩)
      have hdepth := Nat.le_of_lt_succ (hitems v hv)
      exact ih v hv hnumbers hdepth _ (datumOf_ofValue document hnumbers .anything hdepth _)
  | object members ih =>
    obtain ⟨hpos, hmembers⟩ := Value.nesting_object_lt.mp (Nat.lt_succ_of_le hd)
    obtain ⟨depth, rfl⟩ : ∃ n, depth = n + 1 := ⟨depth - 1, by omega⟩
    have hplaces : ∀ m ∈ members, Presents (ofValue document (.key path m.1) depth m.2) m.2 := by
      intro m hm
      rw [Value.numbers_object] at h
      have hnumbers := fun n hn => h n (List.mem_flatMap.mpr ⟨m, hm, hn⟩)
      have hdepth := Nat.le_of_lt_succ (hmembers m hm)
      exact ih m hm hnumbers hdepth _ (datumOf_ofValue document hnumbers .anything hdepth _)
    refine ⟨⟨optional_ofValue h nofun, hdatum⟩, fun e => ?_, fun tag e => ?_⟩
    · obtain ⟨places, hnamed, hpresents⟩ := presents_named
        (fun key => Datum.text <$> key.text .fieldName) (fun _ => rfl) hplaces
      refine ⟨places, ?_, hpresents⟩
      rw [← hnamed]
      rfl
    · obtain ⟨places, hnamed, hpresents⟩ := presents_named
        (datum (.tagOrAnything tag)) (fun _ => datumOf_scalar _ _ _) hplaces
      refine ⟨places, ?_, hpresents⟩
      rw [← hnamed]
      rfl

end Place

/-! ## Reading printed values -/

/-- What is read from a value is read from its compact text. -/
theorem read_compact {α : Type} {reader : Place → Reading α} {v : Value} {a : α}
    (hr : Data.Reads reader v a) (hv : Portable v) (hd : v.nesting ≤ maxDepth) :
    read reader v.compact = .ok a := by
  have hdocument : document? v.compact = some (some ⟨Linked.ofValue v, []⟩) := by
    rw [document?, Token.scan?_compact hv]
    change (Node.ofTokens? v.tokens >>= _) = _
    rw [Node.ofTokens?_tokens]
    change some <$> Anchored.ofNode? (Node.ofValue v) = _
    rw [Anchored.ofNode?, Linked.ofNode?_ofValue]
    rfl
  have hread := hr _ (Place.presents_ofValue ⟨Linked.ofValue v, []⟩ hv.numbers hd .root)
  rw [read, hdocument]
  change (reader (Place.ofValue _ .root maxDepth v)).run' _ = _
  rw [hread]
  rfl

end Dbml.Yaml
