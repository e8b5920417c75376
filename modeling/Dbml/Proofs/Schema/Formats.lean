import Dbml.Load
import Dbml.Proofs.FileSystem.Action
import Dbml.Proofs.Schema.RoundTrip
import Dbml.Proofs.Yaml.Presented

/-!
# Schema descriptions in either format

The compact JSON text of a schema description is a YAML text too, and is read as the same
schema description in either format (`loadDataModelAs_compact`), if its texts are printable, its
numbers integers of a word, and the arguments of its expressions scalars.
-/

namespace Dbml

open Json (Value)
open Text (IsPrintable)
open Yaml (IsShortName Portable)

/-! ## Portable values -/

theorem portable_string {s : String} (h : IsPrintable s) : Portable (.string s) :=
  ⟨nofun, List.forall_mem_singleton.mpr h, nofun⟩

theorem portable_bool (b : Bool) : Portable (.bool b) := ⟨nofun, nofun, nofun⟩

theorem portable_textsValue {texts : List String} (h : ∀ t ∈ texts, IsPrintable t) :
    Portable (textsValue texts) :=
  Yaml.portable_array.mpr (List.forall_mem_map.mpr fun t ht => portable_string (h t ht))

/-- A list that is written only if it has items. -/
theorem portable_listMember {name : String} {items : List Value} (hname : IsShortName name)
    (h : ∀ v ∈ items, Portable v) (absent : Bool) :
    ∀ m ∈ (if absent then [] else [(name, Value.array items)]), IsShortName m.1 ∧ Portable m.2 := by
  cases absent with
  | true => nofun
  | false => exact List.forall_mem_singleton.mpr ⟨hname, Yaml.portable_array.mpr h⟩

theorem portable_optionalMember {α : Type} {name : String} {toValue : α → Value} {x : Option α}
    (hname : IsShortName name) (h : ∀ a ∈ x, Portable (toValue a)) :
    ∀ m ∈ optionalMember name (x.map toValue), IsShortName m.1 ∧ Portable m.2 :=
  forall_mem_optionalMember.mpr fun a ha => ⟨hname, h a ha⟩

theorem portable_textsMember {name : String} {texts : List String} (hname : IsShortName name)
    (h : ∀ t ∈ texts, IsPrintable t) :
    ∀ m ∈ textsMember name texts, IsShortName m.1 ∧ Portable m.2 :=
  portable_listMember hname (List.forall_mem_map.mpr fun t ht => portable_string (h t ht)) _

/-- Whether a default holds no numbers but integers of a word, and has neither lists nor objects
nor unprintable texts for arguments. -/
structure ColumnDefault.Plain (d : ColumnDefault) : Prop where
  numbers : ∀ n ∈ d.numbers, n.IsWordInteger
  scalars : ∀ v ∈ d.args, v.nesting = 0
  printable : ∀ v ∈ d.args, ∀ t ∈ v.texts, IsPrintable t

instance (d : ColumnDefault) : Decidable d.Plain :=
  decidable_of_iff ((∀ n ∈ d.numbers, n.IsWordInteger) ∧ (∀ v ∈ d.args, v.nesting = 0) ∧
      ∀ v ∈ d.args, ∀ t ∈ v.texts, IsPrintable t)
    ⟨fun ⟨hn, hs, ht⟩ => ⟨hn, hs, ht⟩, fun ⟨hn, hs, ht⟩ => ⟨hn, hs, ht⟩⟩

/-- A scalar has no members. -/
theorem keys_of_nesting {v : Value} (h : v.nesting = 0) : v.keys = [] := by
  cases v with
  | null | bool | number | string => rfl
  | array | object => cases h

theorem ColumnDefault.portable_toValue {d : ColumnDefault} (ht : ∀ t ∈ d.texts, IsPrintable t)
    (hd : d.Plain) : Portable d.toValue := by
  obtain ⟨hnumbers, hscalars, hprintable⟩ := hd
  refine Yaml.portable_object.mpr ?_
  have htag (kind : String) (h : IsPrintable kind) :
      IsShortName tagName ∧ Portable (.string kind) := ⟨by decide, portable_string h⟩
  have hvalue {v : Value} (h : Portable v) : IsShortName "value" ∧ Portable v := ⟨by decide, h⟩
  cases d with
  | string s =>
    have hs := portable_string (ht s List.mem_cons_self)
    exact List.forall_mem_cons.mpr
      ⟨htag _ (by decide), List.forall_mem_singleton.mpr (hvalue hs)⟩
  | number n =>
    have hn : Portable (.number n) := ⟨hnumbers, nofun, nofun⟩
    exact List.forall_mem_cons.mpr
      ⟨htag _ (by decide), List.forall_mem_singleton.mpr (hvalue hn)⟩
  | boolean b =>
    exact List.forall_mem_cons.mpr
      ⟨htag _ (by decide), List.forall_mem_singleton.mpr (hvalue (portable_bool b))⟩
  | member s =>
    have hs := portable_string (ht s List.mem_cons_self)
    exact List.forall_mem_cons.mpr
      ⟨htag _ (by decide), List.forall_mem_singleton.mpr (hvalue hs)⟩
  | generated name args =>
    have hname := ht name List.mem_cons_self
    have hargs : ∀ v ∈ args, Portable v := fun v hv =>
      { numbers := fun n hn => hnumbers n (List.mem_flatMap.mpr ⟨v, hv, hn⟩)
        texts := hprintable v hv
        names := by
          rw [keys_of_nesting (hscalars v hv)]
          nofun }
    exact List.forall_mem_append.mpr ⟨List.forall_mem_cons.mpr ⟨htag _ (by decide),
      List.forall_mem_singleton.mpr ⟨(by decide : IsShortName "name"), portable_string hname⟩⟩,
      portable_listMember (by decide) hargs _⟩
  | unsupported => exact List.forall_mem_singleton.mpr (htag _ (by decide))

theorem RelationSide.portable_toValue {side : RelationSide}
    (h : ∀ t ∈ side.texts, IsPrintable t) : Portable side.toValue := by
  simp only [texts, List.forall_mem_append, Option.mem_toList] at h
  obtain ⟨⟨hname, hfrom⟩, hto⟩ := h
  have haction (action : DeleteAction) : IsPrintable action.name := by cases action <;> decide
  refine Yaml.portable_object.mpr ?_
  simp only [List.forall_mem_append]
  exact ⟨⟨⟨portable_optionalMember (by decide) fun s hs => portable_string (hname s hs),
    portable_textsMember (by decide) hfrom⟩, portable_textsMember (by decide) hto⟩,
    portable_optionalMember (by decide) fun action _ => portable_string (haction action)⟩

theorem Field.portable_toValue {f : Field} (h : ∀ t ∈ f.texts, IsPrintable t)
    (hd : ∀ d ∈ f.default, d.Plain) : Portable f.toValue := by
  simp only [texts, List.forall_mem_append, List.forall_mem_flatMap, List.forall_mem_cons,
    Option.mem_toList] at h
  obtain ⟨hname, htype, ⟨hdefault, hdocumentation⟩, hrelation⟩ := h
  have hkind : IsPrintable f.kind.name := by cases f.kind <;> decide
  refine Yaml.portable_object.mpr ?_
  simp only [List.forall_mem_append, List.forall_mem_cons]
  exact ⟨⟨⟨⟨⟨by decide, portable_string hname⟩, ⟨by decide, portable_string hkind⟩,
      ⟨by decide, portable_string htype⟩, ⟨by decide, portable_bool _⟩,
      ⟨by decide, portable_bool _⟩, ⟨by decide, portable_bool _⟩,
      ⟨by decide, portable_bool _⟩, nofun⟩,
    portable_optionalMember (by decide) fun d hd' => d.portable_toValue (hdefault d hd') (hd d hd')⟩,
    portable_optionalMember (by decide) fun s hs => portable_string (hdocumentation s hs)⟩,
    portable_optionalMember (by decide) fun side hs => side.portable_toValue (hrelation side hs)⟩

theorem Model.portable_toValue {model : Model} (h : ∀ t ∈ model.texts, IsPrintable t)
    (hd : ∀ f ∈ model.fields, ∀ d ∈ f.default, d.Plain) : Portable model.toValue := by
  simp only [texts, List.forall_mem_append, List.forall_mem_flatMap, List.forall_mem_cons,
    List.mem_flatten, Option.mem_toList] at h
  obtain ⟨hname, ⟨⟨⟨hdbName, hfields⟩, hdocumentation⟩, hprimaryKey⟩, huniqueFields⟩ := h
  refine Yaml.portable_object.mpr ?_
  simp only [List.forall_mem_append, List.forall_mem_singleton]
  refine ⟨⟨⟨⟨⟨⟨by decide, portable_string hname⟩,
    portable_optionalMember (by decide) fun s hs => portable_string (hdbName s hs)⟩,
    by decide, Yaml.portable_array.mpr (List.forall_mem_map.mpr fun f hf =>
      f.portable_toValue (hfields f hf) (hd f hf))⟩,
    portable_optionalMember (by decide) fun s hs => portable_string (hdocumentation s hs)⟩,
    portable_optionalMember (by decide) fun key hkey => portable_textsValue fun t ht =>
      hprimaryKey t (Option.mem_def.mp hkey ▸ ht)⟩,
    portable_listMember (by decide) (List.forall_mem_map.mpr fun key hkey =>
      portable_textsValue fun t ht => huniqueFields t ⟨key, hkey, ht⟩) _⟩

theorem DataModel.portable_toValue {dm : DataModel} (h : ∀ t ∈ dm.texts, IsPrintable t)
    (hd : ∀ d ∈ dm.defaults, d.Plain) : Portable dm.toValue := by
  simp only [texts, Enumeration.texts, List.forall_mem_append, List.forall_mem_flatMap,
    List.forall_mem_cons] at h
  obtain ⟨hmodels, henums⟩ := h
  refine Yaml.portable_object.mpr ?_
  simp only [List.forall_mem_cons]
  refine ⟨⟨by decide, Yaml.portable_array.mpr (List.forall_mem_map.mpr fun model hmodel => ?_)⟩,
    ⟨by decide, Yaml.portable_array.mpr (List.forall_mem_map.mpr fun e he => ?_)⟩, nofun⟩
  · exact model.portable_toValue (hmodels model hmodel) fun f hf d hd' =>
      hd d (mem_defaults.mpr ⟨model, hmodel, f, hf, hd'⟩)
  · obtain ⟨hname, hvalues⟩ := henums e he
    refine Yaml.portable_object.mpr ?_
    simp only [List.forall_mem_cons]
    exact ⟨⟨by decide, portable_string hname⟩, ⟨by decide, portable_textsValue hvalues⟩, nofun⟩

/-! ## Loading -/

open FileSystem in
/-- A schema description is loaded from its compact JSON text in whichever format, if its texts are
printable ASCII, its numbers integers of a word, and the arguments of its expressions neither
lists nor objects. -/
theorem loadDataModelAs_compact {fs : FileSystem} {p : Path} {dm : DataModel}
    (hfile : fs.find p = .ok (.file (.text dm.toValue.compact)))
    (ht : ∀ t ∈ dm.texts, IsPrintable t) (hd : ∀ d ∈ dm.defaults, d.Plain) (format : FileFormat) :
    fs.run (loadDataModelAs (m := Action) p format) = (.ok dm, fs) := by
  have hportable := dm.portable_toValue ht hd
  have hreads {σ : Type} {m : Type → Type} [Monad m] [Data.Source σ m] [Data.LawfulSource σ m] :
      Data.Reads (σ := σ) DataModel.read dm.toValue dm := by
    refine dm.reads fun d hdefault v hv => ?_
    rw [Value.Ordered, keys_of_nesting ((hd d hdefault).scalars v hv)]
    exact List.forall_mem_nil _
  have hnesting : dm.toValue.nesting < 1 + 7 :=
    dm.nesting_toValue_lt Nat.one_pos fun d hdefault v hv => by
      rw [(hd d hdefault).scalars v hv]
      exact Nat.one_pos
  have hjson : Json.read DataModel.read dm.toValue.compact = .ok dm :=
    Json.read_compact hreads hportable.numbers (hnesting.trans (by decide))
  have hyaml : Yaml.read DataModel.read dm.toValue.compact = .ok dm :=
    Yaml.read_compact hreads hportable ((Nat.le_of_lt hnesting).trans (by decide))
  have hread : readDocument format.isYaml DataModel.read dm.toValue.compact = .ok dm := by
    cases format with
    | json => exact congrArg (Except.mapError ReadError.json) hjson
    | yaml | yml => exact congrArg (Except.mapError ReadError.yaml) hyaml
  have htext : fs.readText p = .ok dm.toValue.compact := by
    rw [FileSystem.readText, hfile]
    rfl
  unfold loadDataModelAs
  rw [run_bind, run_adapt, run_readText, htext]
  change fs.run (ofExcept ((readDocument _ _ _).mapError _)) = _
  rw [run_ofExcept, hread]
  rfl

namespace Lookalikes

/-- Texts that YAML would not take for texts without quotes. -/
def codes : Enumeration where
  name := "null"
  values := ["~", "true", "0x1", "a: b", "#", "\x7b", "*x", "- ", "\"\\"]

def schema : DataModel where
  models := [{ name := "&a", fields := [
    { name := " 1 ", kind := .scalar, type := "!t", default := some (.string "no # comment") },
    { name := "?", kind := .scalar, type := "1e3", default := some (.number (.integer (-7))) },
    { name := "", kind := .scalar, type := "[]",
      default := some (.generated "%" [.null, .bool true, .string "false", .number (.integer 10)]) }] }]
  enums := [codes]

def fs : FileSystem where
  entries := [(["schema".toList], .file (.text schema.toValue.compact))]
  current := []

theorem schema_loaded : fs.find ⟨"schema"⟩ = .ok (.file (.text schema.toValue.compact)) ∧
    (∀ t ∈ schema.texts, IsPrintable t) ∧ (∀ d ∈ schema.defaults, d.Plain) ∧
    fs.run (loadDataModelAs (m := FileSystem.Action) ⟨"schema"⟩ .yaml) = (.ok schema, fs) := by
  have hfile : fs.find ⟨"schema"⟩ = .ok (.file (.text schema.toValue.compact)) := rfl
  have htexts : ∀ t ∈ schema.texts, IsPrintable t := by decide
  have hdefaults : ∀ d ∈ schema.defaults, d.Plain := by decide
  exact ⟨hfile, htexts, hdefaults, loadDataModelAs_compact hfile htexts hdefaults .yaml⟩

end Lookalikes

end Dbml
