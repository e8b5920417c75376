import Dbml.Proofs.Json.Presented
import Dbml.Proofs.Schema.Reading

/-!
# Schema descriptions as JSON

A schema description is read back from its compact JSON text (`DataModel.read_compact_toValue`)
if every default can be written (`ColumnDefault.Writable`). Only defaults hold numbers, and
only their arguments are nested without a limit of their own.
-/

namespace Dbml

open Json (Number Value)

section

variable {α β : Type} {name : String} {toValue : α → Value}

theorem flatMap_optionalMember (x : Option α) (f : String × Value → List β) :
    (optionalMember name (x.map toValue)).flatMap f =
      x.toList.flatMap fun a => f (name, toValue a) := by
  cases x <;> simp [optionalMember]

theorem forall_mem_optionalMember {x : Option α} {p : String × Value → Prop} :
    (∀ member ∈ optionalMember name (x.map toValue), p member) ↔ ∀ a ∈ x, p (name, toValue a) := by
  cases x <;> simp [optionalMember]

/-- A list that is written only if it has items holds what its items hold. -/
theorem numbers_listMember (as : List α) :
    (if as.isEmpty then [] else [(name, Value.array (as.map toValue))]).flatMap (·.2.numbers) =
      as.flatMap fun a => (toValue a).numbers := by
  cases as <;> simp [List.flatMap_map]

theorem nesting_listMember_lt {absent : Bool} {items : List Value} {n : Nat} (hpos : 0 < n)
    (h : ∀ v ∈ items, v.nesting < n) :
    ∀ member ∈ (if absent then [] else [(name, Value.array items)]), member.2.nesting < n + 1 := by
  cases absent with
  | true => nofun
  | false => exact List.forall_mem_singleton.mpr (Value.nesting_array_lt.mpr ⟨hpos, h⟩)

end

/-! ## Numbers -/

theorem numbers_textsValue (texts : List String) : (textsValue texts).numbers = [] := by
  simp [textsValue, List.flatMap_map]

theorem flatMap_nil_const {α β : Type} (as : List α) : (as.flatMap fun _ => ([] : List β)) = [] :=
  List.flatMap_eq_nil_iff.mpr fun _ _ => rfl

theorem numbers_textsMember (name : String) (texts : List String) :
    (textsMember name texts).flatMap (·.2.numbers) = [] :=
  (numbers_listMember texts).trans (flatMap_nil_const texts)

namespace ColumnDefault

/-- The numbers in a default. -/
def numbers : ColumnDefault → List Number
  | .number n => [n]
  | .generated _ args => args.flatMap Value.numbers
  | .string _ | .boolean _ | .member _ | .unsupported => []

theorem numbers_toValue (d : ColumnDefault) : d.toValue.numbers = d.numbers := by
  cases d with
  | generated name args => cases args <;> simp [toValue, toMembers, numbers]
  | _ => rfl

end ColumnDefault

theorem RelationSide.numbers_toValue (side : RelationSide) : side.toValue.numbers = [] := by
  simp [toValue, flatMap_optionalMember, numbers_textsMember]

theorem Field.numbers_toValue (f : Field) :
    f.toValue.numbers = f.default.toList.flatMap (·.numbers) := by
  simp [toValue, flatMap_optionalMember, ColumnDefault.numbers_toValue,
    RelationSide.numbers_toValue]

theorem Model.numbers_toValue (model : Model) :
    model.toValue.numbers = model.fields.flatMap fun f => f.default.toList.flatMap (·.numbers) := by
  rw [toValue, Value.numbers_object, List.flatMap_append, numbers_listMember]
  simp [flatMap_optionalMember, List.flatMap_map, Field.numbers_toValue, numbers_textsValue,
    flatMap_nil_const]

theorem Enumeration.numbers_toValue (e : Enumeration) : e.toValue.numbers = [] := by
  simp [toValue, numbers_textsValue]

/-- Only defaults hold numbers. -/
theorem DataModel.numbers_toValue (dm : DataModel) :
    dm.toValue.numbers = dm.defaults.flatMap (·.numbers) := by
  simp [toValue, defaults, List.flatMap_map, List.flatMap_assoc, Model.numbers_toValue,
    Enumeration.numbers_toValue]

/-! ## Nesting -/

variable {n : Nat}

theorem nesting_textsValue (texts : List String) : (textsValue texts).nesting < 2 :=
  Value.nesting_array_lt.mpr ⟨Nat.one_pos, List.forall_mem_map.mpr fun _ _ => Nat.one_pos⟩

theorem nesting_textsMember {name : String} {texts : List String} :
    ∀ member ∈ textsMember name texts, member.2.nesting < 2 :=
  nesting_listMember_lt Nat.one_pos (List.forall_mem_map.mpr fun _ _ => Nat.one_pos)

theorem RelationSide.nesting_toValue (side : RelationSide) : side.toValue.nesting < 3 := by
  simp only [toValue, Value.nesting_object_lt, List.forall_mem_append, forall_mem_optionalMember]
  exact ⟨by decide, ⟨⟨fun _ _ => Nat.two_pos, nesting_textsMember⟩, nesting_textsMember⟩,
    fun _ _ => Nat.two_pos⟩

variable (hpos : 0 < n)
include hpos

theorem ColumnDefault.nesting_toValue_lt {d : ColumnDefault} (h : ∀ v ∈ d.args, v.nesting < n) :
    d.toValue.nesting < n + 2 := by
  have hscalar : 0 < n + 1 := Nat.succ_pos n
  cases d with
  | generated name args =>
    simp only [toValue, toMembers, Value.nesting_object_lt, List.forall_mem_append]
    exact ⟨hscalar, by simp, nesting_listMember_lt hpos h⟩
  | _ => simp [toValue, toMembers, Value.nesting_object_lt]

theorem Field.nesting_toValue_lt {f : Field}
    (h : ∀ d ∈ f.default, ∀ v ∈ d.args, v.nesting < n) : f.toValue.nesting < n + 3 := by
  have hscalar : 0 < n + 2 := Nat.succ_pos _
  simp only [toValue, Value.nesting_object_lt, List.forall_mem_append, forall_mem_optionalMember]
  refine ⟨hscalar, ⟨⟨by simp, fun d hd => ColumnDefault.nesting_toValue_lt hpos (h d hd)⟩,
    fun _ _ => hscalar⟩, fun side _ => ?_⟩
  exact side.nesting_toValue.trans_le (Nat.add_le_add_right hpos 2)

theorem Model.nesting_toValue_lt {model : Model}
    (h : ∀ f ∈ model.fields, ∀ d ∈ f.default, ∀ v ∈ d.args, v.nesting < n) :
    model.toValue.nesting < n + 5 := by
  have hscalar : 0 < n + 4 := Nat.succ_pos _
  have htexts (texts : List String) : (textsValue texts).nesting < n + 3 :=
    (nesting_textsValue texts).trans_le (by omega)
  have hfields : (Value.array (model.fields.map (·.toValue))).nesting < n + 4 :=
    Value.nesting_array_lt.mpr ⟨Nat.succ_pos _,
      List.forall_mem_map.mpr fun f hf => Field.nesting_toValue_lt hpos (h f hf)⟩
  simp only [toValue, Value.nesting_object_lt, List.forall_mem_append, forall_mem_optionalMember,
    List.forall_mem_singleton]
  exact ⟨hscalar, ⟨⟨⟨⟨hscalar, fun _ _ => hscalar⟩, hfields⟩, fun _ _ => hscalar⟩,
    fun key _ => (htexts key).trans (Nat.lt_succ_self _)⟩,
    nesting_listMember_lt (Nat.succ_pos _) (List.forall_mem_map.mpr fun key _ => htexts key)⟩

omit hpos in
theorem Enumeration.nesting_toValue (e : Enumeration) : e.toValue.nesting < 3 :=
  Value.nesting_object_lt.mpr ⟨Nat.two_pos, List.forall_mem_cons.mpr
    ⟨Nat.two_pos, List.forall_mem_singleton.mpr (nesting_textsValue e.values)⟩⟩

/-- Around the arguments of a default, lists and objects are nested seven deep. -/
theorem DataModel.nesting_toValue_lt {dm : DataModel}
    (h : ∀ d ∈ dm.defaults, ∀ v ∈ d.args, v.nesting < n) : dm.toValue.nesting < n + 7 := by
  have hmodels : (Value.array (dm.models.map (·.toValue))).nesting < n + 6 :=
    Value.nesting_array_lt.mpr ⟨Nat.succ_pos _, List.forall_mem_map.mpr fun model hmodel =>
      Model.nesting_toValue_lt hpos fun f hf d hd =>
        h d (mem_defaults.mpr ⟨model, hmodel, f, hf, hd⟩)⟩
  have henums : (Value.array (dm.enums.map (·.toValue))).nesting < n + 6 :=
    Value.nesting_array_lt.mpr ⟨Nat.succ_pos _, List.forall_mem_map.mpr fun e _ =>
      e.nesting_toValue.trans_le (by omega)⟩
  exact Value.nesting_object_lt.mpr ⟨Nat.succ_pos _,
    List.forall_mem_cons.mpr ⟨hmodels, List.forall_mem_singleton.mpr henums⟩⟩

omit hpos

/-! ## Reading what is written -/

/-- Whether a default can be written: its numbers are integers of a word, the members of the
objects among its arguments are in order, and no argument is nested so deep that the document
were too deep. -/
structure ColumnDefault.Writable (d : ColumnDefault) : Prop where
  numbers : ∀ n ∈ d.numbers, n.IsWordInteger
  ordered : ∀ v ∈ d.args, v.Ordered
  nesting : ∀ v ∈ d.args, v.nesting ≤ 120

instance (d : ColumnDefault) : Decidable d.Writable :=
  decidable_of_iff ((∀ n ∈ d.numbers, n.IsWordInteger) ∧ (∀ v ∈ d.args, v.Ordered) ∧
      ∀ v ∈ d.args, v.nesting ≤ 120)
    ⟨fun ⟨hn, ho, hd⟩ => ⟨hn, ho, hd⟩, fun ⟨hn, ho, hd⟩ => ⟨hn, ho, hd⟩⟩

/-- A schema description is read back from its compact text. -/
theorem DataModel.read_compact_toValue (dm : DataModel) (h : ∀ d ∈ dm.defaults, d.Writable) :
    Json.read DataModel.read dm.toValue.compact = .ok dm := by
  have hnumbers : ∀ n ∈ dm.toValue.numbers, n.IsWordInteger := by
    rw [numbers_toValue]
    intro n hn
    obtain ⟨d, hd, hn⟩ := List.mem_flatMap.mp hn
    exact (h d hd).numbers n hn
  have hnesting : dm.toValue.nesting < Json.maxDepth :=
    nesting_toValue_lt (Nat.succ_pos 120) fun d hd v hv => Nat.lt_succ_of_le ((h d hd).nesting v hv)
  exact Json.read_compact (dm.reads fun d hd => (h d hd).ordered) hnumbers hnesting

namespace Library

/-- An expression with nested arguments. -/
def shelfMark : ColumnDefault :=
  .generated "mark" [.object [("floor", .array [.number (.integer (-3)), .null]),
    ("sign", .object [("text", .string "\"§\t\\\x01\""), ("tilted", .bool false)])]]

def book : Model where
  name := "Book\n"
  dbName := some ""
  fields := [
    { name := "id", kind := .scalar, type := "Int", isId := true,
      default := some (.generated "autoincrement" []) },
    { name := "mark", kind := .scalar, type := "String", isUnique := true, default := some shelfMark },
    { name := "pages", kind := .scalar, type := "BigInt", isRequired := true,
      default := some (.number (.integer 0xFFFFFFFFFFFFFFFF)) },
    { name := "lent", kind := .scalar, type := "Boolean", default := some (.boolean false) },
    { name := "title", kind := .scalar, type := "String", default := some (.string "\x00\r𝄞") },
    { name := "state", kind := .enumeration, type := "State", isList := true,
      default := some (.member "NEW"), documentation := some "" },
    { name := "scan", kind := .unsupported, type := "image", default := some .unsupported },
    { name := "next", kind := .object, type := "Book",
      relation := some { fromFields := ["mark"], onDelete := some .noAction } }]
  documentation := some "a/b: 𝄞"
  primaryKey := some []
  uniqueFields := [["mark", "title"], []]

def schema : DataModel where
  models := [book, { name := "", fields := [] }]
  enums := [{ name := "State", values := ["NEW", "null"] }]

theorem schema_read : shelfMark ∈ schema.defaults ∧ (∀ d ∈ schema.defaults, d.Writable) ∧
    Json.read DataModel.read schema.toValue.compact = .ok schema := by
  have hwritable : ∀ d ∈ schema.defaults, d.Writable := by decide
  exact ⟨List.mem_cons_of_mem _ List.mem_cons_self, hwritable, schema.read_compact_toValue hwritable⟩

end Library

end Dbml
