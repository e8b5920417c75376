import Dbml.Proofs.Json.Presented
import Dbml.Proofs.Schema.RearrangedDefault
import Dbml.Schema.Model

/-!
# Rearranged schema descriptions

The order of members does not matter in a schema description, and neither do members that its
records have no fields for (`DataModel.read_rearranged`). The rearrangement of each record names
its fields and what may be done to their values; only values that are read as records or lists of
them may get further members.
-/

namespace Dbml

open Data (Independent Respects Slot Source respects_ofLens)
open Json (IsDocument Place Rearrangement StringToken Tree)
open Json.Place (Related respects_anyList respects_bool respects_list respects_optional
  respects_record respects_text respects_variant)

theorem respects_readTexts : Respects (Related .any) (readTexts (σ := Place)) :=
  respects_anyList (respects_text .text)

variable {σ ε : Type} [Source σ (Except ε)]

namespace RelationSide

def rearrangement : Rearrangement :=
  .record [("name", .any), ("fromFields", .any), ("toFields", .any), ("onDelete", .any)]

theorem independent_slots :
    Independent (slots : List (Slot σ (Except ε) Draft)) := by simp [slots]

theorem respects_read : Respects (Related rearrangement) (read (σ := Place)) :=
  respects_record independent_slots <|
    .cons ⟨rfl, respects_ofLens (respects_optional (respects_text .text))⟩ <|
    .cons ⟨rfl, respects_ofLens respects_readTexts⟩ <|
    .cons ⟨rfl, respects_ofLens respects_readTexts⟩ <|
    .cons ⟨rfl, respects_ofLens (respects_optional (respects_variant _))⟩ .nil

end RelationSide

namespace Field

def rearrangement : Rearrangement :=
  .record [("name", .any), ("kind", .any), ("type", .any), ("isId", .any), ("isUnique", .any),
    ("isRequired", .any), ("isList", .any), ("default", ColumnDefault.rearrangement),
    ("documentation", .any), ("relation", RelationSide.rearrangement)]

theorem independent_slots :
    Independent (slots : List (Slot σ (Except ε) Draft)) := by simp [slots]

theorem respects_read : Respects (Related rearrangement) (read (σ := Place)) :=
  respects_record independent_slots <|
    .cons ⟨rfl, respects_ofLens (respects_text .text)⟩ <|
    .cons ⟨rfl, respects_ofLens (respects_variant _)⟩ <|
    .cons ⟨rfl, respects_ofLens (respects_text .text)⟩ <|
    .cons ⟨rfl, respects_ofLens respects_bool⟩ <|
    .cons ⟨rfl, respects_ofLens respects_bool⟩ <|
    .cons ⟨rfl, respects_ofLens respects_bool⟩ <|
    .cons ⟨rfl, respects_ofLens respects_bool⟩ <|
    .cons ⟨rfl, respects_ofLens (respects_optional ColumnDefault.respects_read)⟩ <|
    .cons ⟨rfl, respects_ofLens (respects_optional (respects_text .text))⟩ <|
    .cons ⟨rfl, respects_ofLens (respects_optional RelationSide.respects_read)⟩ .nil

end Field

namespace Model

def rearrangement : Rearrangement :=
  .record [("name", .any), ("dbName", .any), ("fields", .list Field.rearrangement),
    ("documentation", .any), ("primaryKey", .any), ("uniqueFields", .any)]

theorem independent_slots :
    Independent (slots : List (Slot σ (Except ε) Draft)) := by simp [slots]

theorem respects_read : Respects (Related rearrangement) (read (σ := Place)) :=
  respects_record independent_slots <|
    .cons ⟨rfl, respects_ofLens (respects_text .text)⟩ <|
    .cons ⟨rfl, respects_ofLens (respects_optional (respects_text .text))⟩ <|
    .cons ⟨rfl, respects_ofLens (respects_list Field.respects_read)⟩ <|
    .cons ⟨rfl, respects_ofLens (respects_optional (respects_text .text))⟩ <|
    .cons ⟨rfl, respects_ofLens (respects_optional respects_readTexts)⟩ <|
    .cons ⟨rfl, respects_ofLens (respects_anyList respects_readTexts)⟩ .nil

end Model

namespace Enumeration

def rearrangement : Rearrangement := .record [("name", .any), ("values", .any)]

theorem independent_slots :
    Independent (slots : List (Slot σ (Except ε) Draft)) := by simp [slots]

theorem respects_read : Respects (Related rearrangement) (read (σ := Place)) :=
  respects_record independent_slots <|
    .cons ⟨rfl, respects_ofLens (respects_text .text)⟩ <|
    .cons ⟨rfl, respects_ofLens respects_readTexts⟩ .nil

end Enumeration

namespace DataModel

def rearrangement : Rearrangement :=
  .record [("models", .list Model.rearrangement), ("enums", .list Enumeration.rearrangement)]

theorem independent_slots :
    Independent (slots : List (Slot σ (Except ε) Draft)) := by simp [slots]

theorem respects_read : Respects (Related rearrangement) (read (σ := Place)) :=
  respects_record independent_slots <|
    .cons ⟨rfl, respects_ofLens (respects_list Model.respects_read)⟩ <|
    .cons ⟨rfl, respects_ofLens (respects_list Enumeration.respects_read)⟩ .nil

/-- A schema description is read the same from a document rearranged; where that is only in
another order, it is read from the one iff it is from the other. -/
theorem read_rearranged {text text' : String} {t t' : Tree} (h : IsDocument text t)
    (h' : IsDocument text' t') (hdistinct : t.Distinct) :
    (rearrangement.Holds t t' → ∀ dm, Json.read DataModel.read text = .ok dm →
      Json.read DataModel.read text' = .ok dm) ∧
    (t.Reordered t' → ∀ dm, Json.read DataModel.read text = .ok dm ↔
      Json.read DataModel.read text' = .ok dm) := by
  refine ⟨fun ht dm => Json.read_of_holds respects_read h h' hdistinct ht, fun ht dm => ⟨?_, ?_⟩⟩
  · exact Json.read_of_holds respects_read h h' hdistinct (rearrangement.of_reordered ht)
  · have hback : rearrangement.Holds t' t := rearrangement.of_reordered ht.symm
    exact Json.read_of_holds respects_read h' h (hdistinct.of_reordered ht) hback

end DataModel

namespace Rearranged

/-- The compact text of the value that a tree stands for. -/
def text (t : Tree) : String := (t.value?.getD .null).compact

def member (name value : String) : StringToken × Tree := (.text name, .string (.text value))

def first : StringToken × Tree := (.text "first", .bool true)

/-- A member that holds a list of one thing. -/
def listMember (name : String) (t : Tree) : StringToken × Tree := (.text name, .array [t] .closed)

def argument : Tree := .object [member "of" "Role", first] .closed

def argument' : Tree := .object [first, member "of" "Role"] .closed

def expression : Tree :=
  .object [member "kind" "generated", member "name" "pick", listMember "args" argument] .closed

/-- The tag stands behind the other members, and there is a further one. -/
def expression' : Tree :=
  .object [member "note" "any", listMember "args" argument', member "name" "pick",
    member "kind" "generated"] .closed

def field : Tree :=
  .object [member "name" "role", member "kind" "enum", member "type" "Role",
    (.text "default", expression)] .closed

def field' : Tree :=
  .object [(.text "default", expression'), member "type" "Role", member "kind" "enum",
    member "name" "role"] .closed

def model : Tree := .object [member "name" "User", listMember "fields" field] .closed

def model' : Tree := .object [listMember "fields" field', member "name" "User"] .closed

/-- A description of one model, with a field that has a default. -/
def tree : Tree := .object [listMember "models" model] .closed

/-- The members of each object have changed places, and there is a further one. -/
def tree' : Tree := .object [member "version" "2", listMember "models" model'] .closed

def schema : DataModel where
  models := [{
    name := "User"
    fields := [{
      name := "role"
      kind := .enumeration
      type := "Role"
      default := some (.generated "pick" [.object [("first", .bool true), ("of", .string "Role")]])
    }]
  }]

theorem distinct_tree : tree.Distinct := by
  simp [tree, model, field, expression, argument, listMember, member, first, Tree.Distinct,
    Tree.DistinctItems, Tree.DistinctMembers, Tree.names, StringToken.text?]

theorem holds_expression : ColumnDefault.rearrangement.Holds expression expression' := by
  have hargument : Tree.Reordered argument argument' := Tree.reordered_object.mpr
    ⟨_, _, rfl, List.forall₂_same.mpr fun m _ => ⟨rfl, .refl m.2⟩, .swap _ _ _⟩
  have hargs : Rearrangement.any.Holds (.array [argument] .closed) (.array [argument'] .closed) :=
    Tree.reordered_array.mpr ⟨_, rfl, .cons hargument .nil⟩
  exact ⟨[member "kind" "generated", member "name" "pick", listMember "args" argument'],
    [member "note" "any"], _, rfl, .cons (.refl _ _) (.cons (.refl _ _) (.cons ⟨rfl, hargs⟩ .nil)),
    List.forall_mem_singleton.mpr ⟨"note", rfl, by decide, "any", rfl⟩, (List.reverse_perm _).symm⟩

theorem holds_field : Field.rearrangement.Holds field field' :=
  ⟨[member "name" "role", member "kind" "enum", member "type" "Role",
      (.text "default", expression')], [], _, rfl,
    .cons (.refl _ _) (.cons (.refl _ _) (.cons (.refl _ _) (.cons ⟨rfl, holds_expression⟩ .nil))),
    List.forall_mem_nil _, (List.reverse_perm _).symm⟩

theorem holds_model : Model.rearrangement.Holds model model' :=
  ⟨[member "name" "User", listMember "fields" field'], [], _, rfl,
    .cons (.refl _ _) (.cons ⟨rfl, _, rfl, .cons holds_field .nil⟩ .nil), List.forall_mem_nil _,
    .swap _ _ _⟩

theorem holds_tree : DataModel.rearrangement.Holds tree tree' :=
  ⟨[listMember "models" model'], [member "version" "2"], _, rfl,
    .cons ⟨rfl, _, rfl, .cons holds_model .nil⟩ .nil,
    List.forall_mem_singleton.mpr ⟨"version", rfl, by decide, "2", rfl⟩, .swap _ _ _⟩

theorem read_text : Json.read DataModel.read (text tree) = .ok schema ∧
    Json.read DataModel.read (text tree') = .ok schema := by
  have hdocument : IsDocument (text tree) tree := Tree.scan_compact_of_value? rfl rfl
  have hdocument' : IsDocument (text tree') tree' := Tree.scan_compact_of_value? rfl rfl
  have hread : Json.read DataModel.read (text tree) = .ok schema :=
    (Json.read_eq_ok_iff hdocument).mpr rfl
  exact ⟨hread, (DataModel.read_rearranged hdocument hdocument' distinct_tree).1 holds_tree _ hread⟩

end Rearranged

end Dbml
