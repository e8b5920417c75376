import Dbml.Proofs.Document.Paragraphs
import Dbml.Proofs.Document.Texts
import Dbml.Proofs.Relation.Order

/-!
# The layout of a document

A document is its banner, a project, tables, enumerations, references and join tables, with one
empty line between each two of them. Tables have empty lines of their own, before the
indexes and before the note, but an indented line comes after each of these. So the blocks
can be read off the text of a document as its paragraphs, in their order and with nothing
else in between (`render_layout`), as long as no text of the data model has a line feed.
-/

namespace Dbml

open Text

variable {o : Options} {dm : DataModel} {d : Document}

/-! ## Blocks are paragraphs -/

theorem ne_empty_of_head? {line : String} {c : Char} (h : line.toList.head? = some c) :
    line ≠ "" := by
  rintro rfl
  cases h

/-- Whether the first of some lines starts with a word. -/
def BeginsWith (word : String) (ls : List String) : Prop :=
  StartsWith (fun line => word.toList <+: line.toList) ls

theorem Indented.of_append {line rest : String} (h : Indented line) : Indented (line ++ rest) := by
  rw [Indented, String.toList_append, List.head?_append, h]
  rfl

/-- Lines without empty ones, the first of which is not indented. -/
theorem IsParagraph.of_ne_empty {line : String} {lines : List String} {c : Char}
    (h : line.toList.head? = some c) (hc : c ≠ ' ') (hls : ∀ l ∈ lines, l ≠ "") :
    IsParagraph (line :: lines) where
  starts := by
    refine ⟨line, rfl, ne_empty_of_head? h, ?_⟩
    rw [Indented, h]
    exact fun hb => hc (Option.some.inj hb)
  emptyThen := .of_ne_empty (List.forall_mem_cons.mpr ⟨ne_empty_of_head? h, hls⟩)

theorem closing_ne_empty : "\x7d" ≠ "" := by decide

theorem isParagraph_bannerLines : IsParagraph bannerLines :=
  .of_ne_empty (bannerLines_spec _ List.mem_cons_self).1 (by decide) fun line h =>
    ne_empty_of_head? (bannerLines_spec line (List.mem_cons_of_mem _ h)).1

theorem Project.isParagraph_lines (p : Project) : IsParagraph p.lines := by
  have hline (label : String) (text : Option String) : ∀ l ∈ line label text, l ≠ "" := by
    intro l hl
    obtain ⟨t, -, rfl⟩ := Option.map_eq_some_iff.mp (Option.mem_toList.mp hl)
    exact ne_empty_of_head? (c := ' ') (by simp)
  refine .of_ne_empty (c := 'P') (by simp) (by decide) ?_
  simp only [List.forall_mem_append, List.forall_mem_singleton]
  exact ⟨⟨hline _ _, hline _ _⟩, closing_ne_empty⟩

theorem Table.isParagraph_lines (t : Table) : IsParagraph t.lines := by
  have hheader : (tableHeader t.name).toList.head? = some 'T' := by simp [tableHeader]
  have hrows : EmptyThen Indented (t.rows.map Row.text) :=
    .of_ne_empty fun line hl => (indented_rows line hl).ne_empty
  have hindexes : EmptyThen Indented (indexLines t.indexes) := by
    cases t.indexes with
    | nil => trivial
    | cons i is =>
      have hentry (i : Index) : i.text ≠ "" := ne_empty_of_head? (c := ' ') (by simp [Index.text])
      have hentries : ∀ line ∈ (i :: is).map Index.text, line ≠ "" :=
        List.forall_mem_map.mpr fun i _ => hentry i
      have hclose : ∀ line ∈ ["  \x7d"], line ≠ "" := by decide
      exact ⟨fun _ => ⟨_, rfl, by decide⟩, .of_ne_empty (List.forall_mem_cons.mpr
        ⟨by decide, List.forall_mem_append.mpr ⟨hentries, hclose⟩⟩)⟩
  have hnote : EmptyThen Indented (noteLines t.note) := by
    cases t.note with
    | none => trivial
    | some text =>
      have hline : Indented ("  Note: " ++ quote '\'' text) := .of_append (by decide)
      exact ⟨fun _ => ⟨_, rfl, hline⟩, fun he => absurd he hline.ne_empty, trivial⟩
  have hclosing : EmptyThen Indented ["\x7d"] :=
    .of_ne_empty (List.forall_mem_singleton.mpr closing_ne_empty)
  constructor
  case starts =>
    refine ⟨tableHeader t.name, rfl, ne_empty_of_head? hheader, ?_⟩
    rw [Indented, hheader]
    decide
  case emptyThen =>
    exact ⟨fun he => absurd he (ne_empty_of_head? hheader),
      ((hrows.append hindexes).append hnote).append hclosing⟩

theorem Block.isParagraph_lines (b : Block) : IsParagraph b.lines := by
  cases b with
  | table t => exact t.isParagraph_lines
  | enumeration e =>
    refine .of_ne_empty (c := 'E') (by simp) (by decide) ?_
    simp only [List.forall_mem_append, List.forall_mem_map, List.forall_mem_singleton]
    exact ⟨fun v _ => ne_empty_of_head? (c := ' ') (by simp), closing_ne_empty⟩
  | reference r => exact .of_ne_empty (c := 'R') (by simp [Reference.toList_text]) (by decide) nofun
  | joinTable j =>
    have hcolumn (c : JoinColumn) : c.text ≠ "" := ne_empty_of_head? (c := ' ') (by simp [JoinColumn.text])
    refine .of_ne_empty (c := 'T') (by simp [tableHeader]) (by decide) ?_
    simp only [List.forall_mem_cons]
    exact ⟨hcolumn _, hcolumn _, closing_ne_empty, nofun⟩

/-! ## Documents -/

namespace Document

/-- The blocks of a document, line by line. -/
def paragraphs (d : Document) : List (List String) :=
  bannerLines :: ((d.project.map Project.lines).toList ++ d.parts.map Block.lines)

theorem isParagraph_of_mem (d : Document) : ∀ ls ∈ d.paragraphs, IsParagraph ls := by
  simp only [paragraphs, List.forall_mem_cons, List.forall_mem_append, List.forall_mem_map]
  refine ⟨isParagraph_bannerLines, fun ls hls => ?_, fun b _ => b.isParagraph_lines⟩
  obtain ⟨p, -, rfl⟩ := Option.map_eq_some_iff.mp (Option.mem_toList.mp hls)
  exact p.isParagraph_lines

theorem text_eq (d : Document) : d.text = "\n".intercalate (joined d.paragraphs) := by
  have hne : ∀ ls ∈ d.paragraphs, ls ≠ [] := fun ls h => (d.isParagraph_of_mem ls h).ne_nil
  have hblocks : d.blocks = d.paragraphs.map ("\n".intercalate ·) := by
    rw [blocks_eq, banner_eq, paragraphs, List.map_cons, List.map_append, List.map_map,
      ← Option.toList_map, Option.map_map]
    rfl
  rw [text, hblocks]
  exact intercalate_joined hne

theorem oneLine_joined {bs : List (List String)} (h : ∀ b ∈ bs, ∀ line ∈ b, Text.OneLine line) :
    ∀ line ∈ joined bs, Text.OneLine line := by
  cases bs with
  | nil => nofun
  | cons b bs =>
    obtain ⟨hb, hbs⟩ := List.forall_mem_cons.mp h
    refine List.forall_mem_append.mpr ⟨hb, fun line hline => ?_⟩
    obtain ⟨b', hb', hline⟩ := List.mem_flatMap.mp hline
    rcases List.mem_cons.mp hline with rfl | hline
    · decide
    · exact hbs b' hb' line hline

/-- A document of texts without line feeds has no others than those between its lines. -/
theorem oneLine_of_mem (hd : o.document dm = .ok d) (hdm : dm.Unbroken) (ho : o.Unbroken) :
    ∀ line ∈ joined d.paragraphs, Text.OneLine line := by
  obtain ⟨-, -, -, -, hproject, -⟩ := document_eq_ok_iff.mp hd
  refine oneLine_joined (List.forall_mem_cons.mpr
    ⟨fun line h => (bannerLines_spec line h).2, List.forall_mem_append.mpr ⟨?project, ?parts⟩⟩)
  case project =>
    intro b hb
    obtain ⟨p, hp, rfl⟩ := Option.map_eq_some_iff.mp (Option.mem_toList.mp hb)
    rw [hproject] at hp
    exact Project.oneLine_lines fun t ht =>
      ho t (List.mem_flatMap.mpr ⟨p, Option.mem_toList.mpr hp, ht⟩)
  case parts => exact List.forall_mem_map.mpr (hdm.parts hd)

theorem linesOf_text (hd : o.document dm = .ok d) (hdm : dm.Unbroken) (ho : o.Unbroken) :
    linesOf d.text = joined d.paragraphs := by
  rw [text_eq]
  exact linesOf_intercalate nofun (oneLine_of_mem hd hdm ho)

/-- The text of a document neither starts nor ends with a line feed. -/
theorem text_bounds (hd : o.document dm = .ok d) (hdm : dm.Unbroken) (ho : o.Unbroken) :
    d.text.toList.head? ≠ some '\n' ∧ d.text.toList.getLast? ≠ some '\n' := by
  have hlines := oneLine_of_mem hd hdm ho
  have hlast : (joined d.paragraphs).getLast? ≠ some "" :=
    (emptyThen_joined d.isParagraph_of_mem).getLast?_ne
  rw [text_eq]
  constructor
  · obtain ⟨hfirst, hone⟩ := bannerLines_spec _ List.mem_cons_self
    exact head?_intercalate_ne (ne_empty_of_head? hfirst) hone
  · rcases List.eq_nil_or_concat (joined d.paragraphs) with hnil | ⟨ls, line, heq⟩
    · cases hnil
    · rw [heq, List.concat_eq_append] at hlast hlines ⊢
      rw [List.getLast?_concat] at hlast
      exact getLast?_intercalate_ne (fun he => hlast (congrArg some he))
        (hlines line (List.mem_append_right _ List.mem_cons_self))

end Document

/-! ## The blocks of a document -/

theorem Reference.beginsWith_lines (r : Reference) : BeginsWith "Ref:" [r.text] := by
  refine ⟨r.text, rfl, ?_⟩
  simp only [Reference.text, String.toList_append, List.append_assoc]
  exact ⟨' ' :: _, rfl⟩

theorem beginsWith_append (word rest : String) (ls : List String) :
    BeginsWith word ((word ++ rest) :: ls) :=
  ⟨_, rfl, rest.toList, String.toList_append.symm⟩

theorem Table.beginsWith_lines (t : Table) : BeginsWith ("Table " ++ t.name) t.lines :=
  beginsWith_append _ _ _

theorem JoinTable.beginsWith_lines (t : JoinTable) : BeginsWith ("Table " ++ t.name) t.lines :=
  beginsWith_append _ _ _

theorem Enumeration.beginsWith_lines (e : Enumeration) : BeginsWith ("Enum " ++ e.name) e.lines :=
  beginsWith_append _ _ _

theorem isSome_direct? (o : Options) (r : Relation) :
    r.direct?.isSome = (o.reference? r).isSome := by
  cases r <;> rfl

/-- The text of a document whose data has no line feeds of its own. It neither starts nor ends
with a line feed, and no two of its lines in a row are empty. Its paragraphs are the banner;
the project, if there is one; the tables of the models, the enumerations, the references of
the relations with a foreign key, and the join tables of the relations between lists, if
there are to be any. Each of them comes in the order of what it is written from, and the
relations in the order of their anchors. -/
theorem render_layout {t : String} (h : o.render dm = .ok t) (hdm : dm.Unbroken)
    (ho : o.Unbroken) :
    t.toList.head? ≠ some '\n' ∧ t.toList.getLast? ≠ some '\n' ∧
    (∀ i, (linesOf t)[i]? = some "" → (linesOf t)[i + 1]? ≠ some "") ∧
    ∃ rs tables references joinTables, dm.relations = .ok rs ∧
      rs.Pairwise (·.anchor.position.Before ·.anchor.position) ∧
      paragraphs (linesOf t) = bannerLines :: ((o.project.map Project.lines).toList ++ tables ++
        dm.enums.map Enumeration.lines ++ references ++ joinTables) ∧
      List.Forall₂ (fun m ls => BeginsWith ("Table " ++ o.tableName m) ls ∧
        ∃ b, o.table dm m = .ok b ∧ ls = b.lines) dm.models tables ∧
      (∀ e ∈ dm.enums, BeginsWith ("Enum " ++ e.name) e.lines) ∧
      List.Forall₂ (fun r ls => BeginsWith "Ref:" ls ∧
        ∃ ref, o.reference? r = some ref ∧ ls = [ref.text])
        (rs.filter (·.direct?.isSome)) references ∧
      List.Forall₂ (fun r ls => BeginsWith ("Table " ++ r.name) ls ∧
        ∃ j, o.joinTable r = .ok j ∧ ls = j.lines)
        (if o.manyToMany then rs.filterMap Relation.manyToMany? else []) joinTables := by
  obtain ⟨d, hd, rfl⟩ := render_eq_ok_iff.mp h
  obtain ⟨rs, hrs, htables, hjoins, hproject, henums, hrefs⟩ := document_eq_ok_iff.mp hd
  obtain ⟨hfirst, hlast⟩ := Document.text_bounds hd hdm ho
  have hempty := emptyThen_joined d.isParagraph_of_mem
  rw [Document.linesOf_text hd hdm ho]
  refine ⟨hfirst, hlast, fun i hi => hempty.next_ne_empty hi, rs, d.tables.map Table.lines,
    d.references.map ([·.text]), d.joinTables.map JoinTable.lines, hrs,
    DataModel.relations_before hrs, ?blocks, ?tables, fun e _ => e.beginsWith_lines, ?references,
    ?joinTables⟩
  case blocks =>
    have hcut := paragraphs_joined d.isParagraph_of_mem
    refine hcut.trans ?_
    simp [Document.parts, hproject, henums, Block.lines, Function.comp_def]
  case tables =>
    rw [List.forall₂_map_right_iff]
    refine (mapM_eq_ok_iff.mp htables).imp fun m b hb => ⟨?_, b, hb, rfl⟩
    rw [← (table_eq_ok_iff.mp hb).1]
    exact b.beginsWith_lines
  case references =>
    rw [List.forall₂_map_right_iff, hrefs]
    exact (forall₂_filterMap (isSome_direct? o) rs).imp fun r ref href =>
      ⟨ref.beginsWith_lines, ref, href, rfl⟩
  case joinTables =>
    have hwalk : (if o.manyToMany then rs.filterMap Relation.manyToMany? else []).mapM o.joinTable =
        .ok d.joinTables := by
      rw [← hjoins, Options.joinTables]
      split <;> rfl
    rw [List.forall₂_map_right_iff]
    refine (mapM_eq_ok_iff.mp hwalk).imp fun r j hj => ⟨?_, j, hj, rfl⟩
    rw [← (joinTable_eq_ok_iff.mp hj).1]
    exact j.beginsWith_lines

/-! ## A document with blocks of all kinds -/

namespace Outline

def options : Options where
  project := some { name := "outline", note := some "it's a tree" }

def parentId : Field := { name := "parentId", kind := .scalar, type := "Int" }

def parent : Field where
  name := "parent"
  kind := .object
  type := "Topic"
  relation := some { fromFields := ["parentId"], toFields := ["id"] }

/-- Its default has a line feed in an argument. -/
def path : Field where
  name := "path"
  kind := .scalar
  type := "String"
  default := some (.generated "join" [.string "a\nb"])

def topic : Model where
  name := "Topic"
  fields := [Blog.id, parentId, parent, Blog.list "children" "Topic", path,
    Blog.list "labels" "Label"]
  documentation := some "one of many"
  uniqueFields := [["parentId", "path"]]

def label : Model := { name := "Label", fields := [Blog.id, Blog.list "topics" "Topic"] }

def dataModel : DataModel where
  models := [topic, label]
  enums := [{ name := "Colour", values := ["red", "blue"] }]

def relations : List Relation :=
  [.oneToMany
      { foreignKey := ⟨⟨⟨0, 2⟩, topic, parent⟩, topic⟩
        referenced := ⟨⟨⟨0, 3⟩, topic, Blog.list "children" "Topic"⟩, topic⟩
        fromFields := ["parentId"]
        toFields := ["id"]
        onDelete := none },
    .manyToMany
      { name := "LabelToTopic"
        explicit := false
        first := ⟨⟨⟨0, 5⟩, topic, Blog.list "labels" "Label"⟩, label⟩
        second := ⟨⟨⟨1, 1⟩, label, Blog.list "topics" "Topic"⟩, topic⟩ }]

theorem relations_eq : dataModel.relations = .ok relations := by
  rw [DataModel.relations_eq_insertionSort]
  with_unfolding_all rfl

def document : Document where
  project := options.project
  tables :=
    [{ name := "Topic"
       rows := [⟨"id", "Int", [.pk]⟩, ⟨"parentId", "Int", []⟩, ⟨"parent", "Topic", []⟩,
         ⟨"children", "Topic", []⟩, ⟨"path", "String", [.default "`join(\"a\\nb\")`"]⟩,
         ⟨"labels", "Label", []⟩]
       indexes := [⟨["parentId", "path"], .unique⟩]
       note := some "one of many" },
     { name := "Label"
       rows := [⟨"id", "Int", [.pk]⟩, ⟨"topics", "Topic", []⟩]
       indexes := []
       note := none }]
  enums := dataModel.enums
  references := [⟨"Topic", ["parentId"], false, "Topic", ["id"], none⟩]
  joinTables := [⟨"LabelToTopic", ⟨"labelsId", "Int", "Label", "id"⟩,
    ⟨"topicsId", "Int", "Topic", "id"⟩⟩]

theorem document_eq : options.document dataModel = .ok document := by
  rw [Options.document, DataModel.relations_eq_insertionSort]
  with_unfolding_all rfl

theorem unbroken : dataModel.Unbroken ∧ options.Unbroken := by decide

theorem layout_render :
    options.render dataModel = .ok document.text ∧ dataModel.Unbroken ∧ options.Unbroken ∧
    document.text.toList.head? ≠ some '\n' ∧ document.text.toList.getLast? ≠ some '\n' ∧
    (paragraphs (linesOf document.text)).length = 7 := by
  have hrender : options.render dataModel = .ok document.text :=
    render_eq_ok_iff.mpr ⟨document, document_eq, rfl⟩
  obtain ⟨hfirst, hlast, -, rs, tables, references, joinTables, hrs, -, hcut, htables, -,
    hreferences, hjoinTables⟩ := render_layout hrender unbroken.1 unbroken.2
  obtain rfl : relations = rs := Except.ok.inj (relations_eq.symm.trans hrs)
  have ht : tables.length = 2 := htables.length_eq.symm
  have hr : references.length = 1 := hreferences.length_eq.symm
  have hj : joinTables.length = 1 := hjoinTables.length_eq.symm
  refine ⟨hrender, unbroken.1, unbroken.2, hfirst, hlast, ?_⟩
  simp only [hcut, List.length_cons, List.length_append, List.length_map, ht, hr, hj]
  rfl

end Outline

end Dbml
