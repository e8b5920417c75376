import Dbml.Proofs.Document.Lines

/-!
# What the lines of a document tell

After its opening a document is a row of blocks (`Document.parts`), each with an empty line
before it. Tables have empty lines inside as well, but each block tells by itself where it
ends (`Block.lines_inj`): rows are indented, and what follows them is told from another
row by its first character. So the text of a document tells all of its blocks
(`Document.eq_of_text`).
-/

namespace Dbml

open Text

inductive Block
  | table (table : Table)
  | enumeration (enumeration : Enumeration)
  | reference (reference : Reference)
  | joinTable (joinTable : JoinTable)

def Block.lines : Block → List String
  | .table t => t.lines
  | .enumeration e => e.lines
  | .reference r => [r.text]
  | .joinTable j => j.lines

theorem Block.lines_ne_nil (b : Block) : b.lines ≠ [] := by
  cases b <;> exact List.cons_ne_nil _ _

/-- The blocks after the opening. -/
def Document.parts (d : Document) : List Block :=
  d.tables.map .table ++ d.enums.map .enumeration ++ d.references.map .reference ++
    d.joinTables.map .joinTable

/-- A table as it is read: a row ends where its line does, and a key at its bracket. -/
structure Table.Legible (t : Table) : Prop where
  name : IsWord t.name
  rows : ∀ r ∈ t.rows, r.Legible
  indexes : ∀ i ∈ t.indexes, IsKey i.columns
  note : ∀ text ∈ t.note, OneLine text

structure Enumeration.Legible (e : Enumeration) : Prop where
  name : IsWord e.name
  values : ∀ v ∈ e.values, IsWord v

structure JoinTable.Legible (j : JoinTable) : Prop where
  name : IsWord j.name
  first : j.first.Legible
  second : j.second.Legible

def Block.Legible : Block → Prop
  | .table t => t.Legible
  | .enumeration e => e.Legible
  | .reference r => r.Legible
  | .joinTable j => j.Legible

/-! ## Tables -/

/-- A line that starts with a blank. -/
def Indented (line : String) : Prop := line.toList.head? = some ' '

/-- An index starts with more blanks than the line that closes the indexes. -/
def IndentedTwice (line : String) : Prop := line.toList.take 4 = [' ', ' ', ' ', ' ']

theorem not_indented_closing : ¬ Indented "\x7d" := by simp [Indented]

theorem not_indented_empty : ¬ Indented "" := by simp [Indented]

theorem surrounded_inj {before after s t : String}
    (h : before ++ s ++ after = before ++ t ++ after) : s = t :=
  (String.append_right_inj _).mp ((String.append_left_inj _).mp h)

namespace Table

theorem noteLines_inj {n n' : Option String} {r s : List String}
    (h : noteLines n ++ "\x7d" :: r = noteLines n' ++ "\x7d" :: s) : n = n' := by
  cases n with
  | none =>
    cases n' with
    | none => rfl
    | some t' => simp [noteLines] at h
  | some t =>
    cases n' with
    | none => simp [noteLines] at h
    | some t' =>
      simp only [noteLines, List.cons_append, List.cons.injEq, true_and] at h
      rw [quote_inj (by decide) ((String.append_right_inj _).mp h.1)]

/-- The block of indexes is told from a note by its first line. -/
theorem indexLines_inj {is is' : List Index} (hi : ∀ i ∈ is, IsKey i.columns)
    (hi' : ∀ i ∈ is', IsKey i.columns) {n n' : Option String} {r s : List String}
    (h : indexLines is ++ (noteLines n ++ "\x7d" :: r) =
      indexLines is' ++ (noteLines n' ++ "\x7d" :: s)) :
    is = is' ∧ noteLines n ++ "\x7d" :: r = noteLines n' ++ "\x7d" :: s := by
  -- without indexes the note or the closing line stands in their place
  have hmissing (n : Option String) (r : List String) (i : Index) (is : List Index)
      (s : List String) : noteLines n ++ "\x7d" :: r ≠ indexLines (i :: is) ++ s := by
    cases n with
    | none => simp [noteLines, indexLines]
    | some t =>
      intro h
      simp only [noteLines, indexLines, List.cons_append, List.cons.injEq, true_and] at h
      simpa using congrArg String.toList h.1
  have htwice (is : List Index) : ∀ line ∈ is.map Index.text, IndentedTwice line := by
    intro line hline
    obtain ⟨i, -, rfl⟩ := List.mem_map.mp hline
    simp [IndentedTwice, Index.text]
  have hclose (r : List String) : Stops IndentedTwice ("  \x7d" :: r) :=
    stops_cons.mpr (by simp [IndentedTwice])
  cases is with
  | nil =>
    cases is' with
    | nil => exact ⟨rfl, h⟩
    | cons i' is' => exact absurd h (hmissing n r i' is' _)
  | cons i is =>
    cases is' with
    | nil => exact absurd h.symm (hmissing n' s i is _)
    | cons i' is' =>
      simp only [indexLines, List.cons_append, List.cons.injEq, true_and, List.append_assoc,
        List.nil_append] at h
      obtain ⟨his, hrest⟩ := append_inj_of_stop (htwice (i :: is)) (htwice (i' :: is'))
        (hclose _) (hclose _) h
      refine ⟨map_inj_of_mem (fun x hx y hy => ?_) his, (List.cons.inj hrest).2⟩
      exact Index.text_inj (hi x hx) (hi' y hy)

theorem indented_rows {rows : List Row} : ∀ line ∈ rows.map Row.text, Indented line := by
  intro line hline
  obtain ⟨row, -, rfl⟩ := List.mem_map.mp hline
  rw [Indented, Row.toList_text]
  rfl

/-- What follows the rows of a table, and whatever follows the table. -/
def tail (t : Table) (r : List String) : List String :=
  indexLines t.indexes ++ (noteLines t.note ++ "\x7d" :: r)

theorem stops_tail (t : Table) (r : List String) : Stops Indented (t.tail r) := by
  unfold tail
  generalize t.indexes = indexes
  cases indexes with
  | nil =>
    generalize t.note = note
    cases note with
    | none => exact stops_cons.mpr not_indented_closing
    | some text => exact stops_cons.mpr not_indented_empty
  | cons i is => exact stops_cons.mpr not_indented_empty

theorem lines_append (t : Table) (r : List String) :
    t.lines ++ r = tableHeader t.name :: (t.rows.map Row.text ++ t.tail r) := by
  simp [lines, tail]

theorem lines_inj {t t' : Table} (ht : t.Legible) (ht' : t'.Legible) {r s : List String}
    (h : t.lines ++ r = t'.lines ++ s) : t = t' := by
  rw [lines_append, lines_append] at h
  obtain ⟨hheader, h⟩ := List.cons.inj h
  have hname := surrounded_inj hheader
  obtain ⟨hrows, htail⟩ := append_inj_of_stop indented_rows indented_rows
    (t.stops_tail r) (t'.stops_tail s) h
  have hrows := map_inj_of_mem
    (fun x hx y hy => Row.text_inj (ht.rows x hx) (ht'.rows y hy)) hrows
  obtain ⟨hindexes, hnote⟩ := indexLines_inj ht.indexes ht'.indexes htail
  have hnote := noteLines_inj hnote
  exact (Table.mk.injEq ..).mpr ⟨hname, hrows, hindexes, hnote⟩

end Table

/-! ## Other blocks -/

theorem Enumeration.lines_inj {e e' : Enumeration} {r s : List String}
    (h : e.lines ++ r = e'.lines ++ s) : e = e' := by
  have happend (e : Enumeration) (r : List String) : e.lines ++ r =
      ("Enum " ++ e.name ++ " \x7b") :: (e.values.map ("  " ++ ·) ++ "\x7d" :: r) := by
    simp [lines]
  have hindented (e : Enumeration) : ∀ line ∈ e.values.map ("  " ++ ·), Indented line := by
    intro line hline
    obtain ⟨value, -, rfl⟩ := List.mem_map.mp hline
    simp [Indented]
  have hclose (r : List String) : Stops Indented ("\x7d" :: r) :=
    stops_cons.mpr not_indented_closing
  rw [happend, happend] at h
  obtain ⟨hheader, h⟩ := List.cons.inj h
  have hname := surrounded_inj hheader
  obtain ⟨hvalues, -⟩ := append_inj_of_stop (hindented e) (hindented e') (hclose r) (hclose s) h
  have hvalues := map_inj_of_mem (fun _ _ _ _ => (String.append_right_inj _).mp) hvalues
  exact (Enumeration.mk.injEq ..).mpr ⟨hname, hvalues⟩

theorem JoinTable.lines_inj {j j' : JoinTable} (hj : j.Legible) (hj' : j'.Legible)
    {r s : List String} (h : j.lines ++ r = j'.lines ++ s) : j = j' := by
  simp only [lines, List.cons_append, List.cons.injEq] at h
  obtain ⟨hheader, hfirst, hsecond, -⟩ := h
  have hname := surrounded_inj hheader
  have hfirst := JoinColumn.text_inj hj.first hj'.first hfirst
  have hsecond := JoinColumn.text_inj hj.second hj'.second hsecond
  exact (JoinTable.mk.injEq ..).mpr ⟨hname, hfirst, hsecond⟩

/-- A table is told from a join table by the line after the header. -/
theorem Table.lines_ne_joinTable {t : Table} {j : JoinTable} (ht : t.Legible) (hj : j.Legible)
    (r s : List String) : t.lines ++ r ≠ j.lines ++ s := by
  intro h
  rw [lines_append] at h
  simp only [JoinTable.lines, List.cons_append, List.cons.injEq] at h
  have hfirst : Indented j.first.text := by
    rw [Indented, JoinColumn.toList_text]
    rfl
  generalize hrows : t.rows = rows at h
  cases rows with
  | nil => exact t.stops_tail r _ (by rw [show t.tail r = _ from h.2]; rfl) hfirst
  | cons row rows =>
    have hrow := ht.rows row (hrows ▸ List.mem_cons_self)
    exact Row.text_ne_joinColumn hrow hj.first (List.cons.inj h.2).1

namespace Block

/-- The character that a block starts with. -/
def initial : Block → Char
  | .table _ | .joinTable _ => 'T'
  | .enumeration _ => 'E'
  | .reference _ => 'R'

theorem head?_lines (b : Block) (r : List String) :
    (b.lines ++ r).head?.bind (·.toList.head?) = some b.initial := by
  cases b <;> simp [lines, Table.lines, Enumeration.lines, JoinTable.lines, tableHeader,
    Reference.toList_text, initial]

/-- A block tells by itself what it is and where it ends. -/
theorem lines_inj {x y : Block} (hx : x.Legible) (hy : y.Legible) {r s : List String}
    (h : x.lines ++ r = y.lines ++ s) : x = y := by
  have hinitial : x.initial = y.initial := by
    have hx := x.head?_lines r
    rw [h, head?_lines] at hx
    exact (Option.some.inj hx).symm
  cases x with
  | table t =>
    cases y with
    | table t' => rw [t.lines_inj hx hy h]
    | joinTable j => exact absurd h (Table.lines_ne_joinTable hx hy _ _)
    | enumeration | reference => simp [initial] at hinitial
  | enumeration e =>
    cases y with
    | enumeration e' => rw [e.lines_inj h]
    | table | reference | joinTable => simp [initial] at hinitial
  | reference r =>
    cases y with
    | reference r' => rw [Reference.text_inj hx hy (List.cons.inj h).1]
    | table | enumeration | joinTable => simp [initial] at hinitial
  | joinTable j =>
    cases y with
    | table t' => exact absurd h.symm (Table.lines_ne_joinTable hy hx _ _)
    | joinTable j' => rw [j.lines_inj hx hy h]
    | enumeration | reference => simp [initial] at hinitial

end Block

/-! ## One line -/

theorem oneLine_surrounded {before after s : String} (hb : OneLine before) (ha : OneLine after)
    (hs : OneLine s) : OneLine (before ++ s ++ after) :=
  oneLine_append.mpr ⟨oneLine_append.mpr ⟨hb, hs⟩, ha⟩

theorem oneLine_tableHeader {name : String} (h : OneLine name) : OneLine (tableHeader name) :=
  oneLine_surrounded (by decide) (by decide) h

theorem Table.oneLine_indexLines {indexes : List Index} (h : ∀ i ∈ indexes, OneLine i.text) :
    ∀ line ∈ indexLines indexes, OneLine line := by
  cases indexes with
  | nil => nofun
  | cons i is =>
    have hentries : ∀ line ∈ (i :: is).map Index.text, OneLine line := List.forall_mem_map.mpr h
    have hclose : ∀ line ∈ ["  \x7d"], OneLine line := by decide
    have hblock := List.forall_mem_append.mpr ⟨hentries, hclose⟩
    exact List.forall_mem_cons.mpr ⟨by decide, List.forall_mem_cons.mpr ⟨by decide, hblock⟩⟩

theorem Table.oneLine_noteLines {note : Option String} (h : ∀ text ∈ note, OneLine text) :
    ∀ line ∈ noteLines note, OneLine line := by
  cases note with
  | none => nofun
  | some text =>
    have hquote : OneLine (quote '\'' text) := (h text rfl).quote (by decide)
    have hline : OneLine ("  Note: " ++ quote '\'' text) := oneLine_append.mpr ⟨by decide, hquote⟩
    exact List.forall_mem_cons.mpr ⟨by decide, List.forall_mem_singleton.mpr hline⟩

theorem oneLine_closing : OneLine "\x7d" := by decide

theorem Table.oneLine_lines {t : Table} (hn : OneLine t.name) (hr : ∀ r ∈ t.rows, OneLine r.text)
    (hi : ∀ i ∈ t.indexes, OneLine i.text) (ht : ∀ text ∈ t.note, OneLine text) :
    ∀ line ∈ t.lines, OneLine line := by
  have hrows : ∀ line ∈ t.rows.map Row.text, OneLine line := List.forall_mem_map.mpr hr
  simp only [Table.lines, List.forall_mem_cons, List.forall_mem_append]
  exact ⟨oneLine_tableHeader hn, ⟨⟨hrows, oneLine_indexLines hi⟩, oneLine_noteLines ht⟩,
    oneLine_closing, nofun⟩

theorem Enumeration.oneLine_lines {e : Enumeration} (hn : OneLine e.name)
    (hv : ∀ v ∈ e.values, OneLine v) : ∀ line ∈ e.lines, OneLine line := by
  have hvalues : ∀ line ∈ e.values.map ("  " ++ ·), OneLine line :=
    List.forall_mem_map.mpr fun v h => oneLine_append.mpr ⟨by decide, hv v h⟩
  simp only [Enumeration.lines, List.forall_mem_cons, List.forall_mem_append]
  exact ⟨oneLine_surrounded (by decide) (by decide) hn, hvalues, oneLine_closing, nofun⟩

theorem JoinTable.oneLine_lines {j : JoinTable} (hn : OneLine j.name)
    (hfirst : OneLine j.first.text) (hsecond : OneLine j.second.text) :
    ∀ line ∈ j.lines, OneLine line := by
  simp only [JoinTable.lines, List.forall_mem_cons]
  exact ⟨oneLine_tableHeader hn, hfirst, hsecond, oneLine_closing, nofun⟩

theorem Block.Legible.oneLine {b : Block} (h : b.Legible) : ∀ line ∈ b.lines, OneLine line := by
  cases b with
  | table t =>
    exact Table.oneLine_lines h.name.oneLine (fun r hr => (h.rows r hr).oneLine_text)
      (fun i hi => Index.oneLine_text (h.indexes i hi).oneLine) h.note
  | enumeration e => exact Enumeration.oneLine_lines h.name.oneLine fun v hv => (h.values v hv).oneLine
  | reference r => exact List.forall_mem_singleton.mpr h.oneLine_text
  | joinTable j =>
    exact JoinTable.oneLine_lines h.name.oneLine h.first.oneLine_text h.second.oneLine_text

/-! ## Documents -/

def bannerLines : List String :=
  ["//// ------------------------------------------------------",
   "//// THIS FILE WAS AUTOMATICALLY GENERATED (DO NOT MODIFY)",
   "//// ------------------------------------------------------"]

theorem banner_eq : banner = "\n".intercalate bannerLines := by rfl

theorem bannerLines_spec :
    ∀ line ∈ bannerLines, line.toList.head? = some '/' ∧ OneLine line := by
  decide +kernel

theorem head?_banner : banner.toList.head? = some '/' := by
  rw [banner_eq, bannerLines, toList_intercalate_cons, List.head?_append,
    (bannerLines_spec _ List.mem_cons_self).1]
  rfl

namespace Document

/-- What stands before the blocks. -/
def opening (d : Document) : String :=
  "\n\n".intercalate (banner :: (d.project.map (·.text)).toList)

/-- Blocks with empty lines between them are their lines, each after a line feed. -/
theorem separated_blocks {bs : List (List String)} (h : ∀ b ∈ bs, b ≠ []) :
    separated ['\n', '\n'] (bs.map ("\n".intercalate ·)) =
      separated ['\n'] (bs.flatMap ("" :: ·)) := by
  induction bs with
  | nil => rfl
  | cons b bs ih =>
    obtain ⟨hb, hbs⟩ := List.forall_mem_cons.mp h
    obtain ⟨line, lines, rfl⟩ := List.exists_cons_of_ne_nil hb
    rw [List.map_cons, List.flatMap_cons, separated_cons, ih hbs, toList_intercalate_cons]
    simp

theorem blocks_eq (d : Document) : d.blocks =
    banner :: ((d.project.map (·.text)).toList ++
      d.parts.map fun b => "\n".intercalate b.lines) := by
  simp [blocks, parts, Block.lines, Table.text, Enumeration.text, JoinTable.text, Function.comp_def]

theorem toList_text (d : Document) :
    d.text.toList =
      d.opening.toList ++ separated ['\n'] (d.parts.flatMap fun b => "" :: b.lines) := by
  have hne : ∀ b ∈ d.parts.map Block.lines, b ≠ [] :=
    List.forall_mem_map.mpr fun b _ => b.lines_ne_nil
  have hparts := separated_blocks hne
  rw [List.map_map, List.flatMap_map] at hparts
  rw [text, blocks_eq, opening, toList_intercalate_cons, toList_intercalate_cons,
    separated_append, ← hparts, List.append_assoc]
  rfl

theorem eq_of_parts {d d' : Document} (hp : d.project = d'.project) (h : d.parts = d'.parts) :
    d = d' := by
  have htables (d : Document) :
      d.parts.filterMap (fun | .table t => some t | _ => none) = d.tables := by
    simp [parts]
  have henums (d : Document) :
      d.parts.filterMap (fun | .enumeration e => some e | _ => none) = d.enums := by
    simp [parts]
  have hreferences (d : Document) :
      d.parts.filterMap (fun | .reference r => some r | _ => none) = d.references := by
    simp [parts]
  have hjoinTables (d : Document) :
      d.parts.filterMap (fun | .joinTable j => some j | _ => none) = d.joinTables := by
    simp [parts]
  have ht : d.tables = d'.tables := by rw [← htables d, h, htables]
  have he : d.enums = d'.enums := by rw [← henums d, h, henums]
  have hr : d.references = d'.references := by rw [← hreferences d, h, hreferences]
  have hj : d.joinTables = d'.joinTables := by rw [← hjoinTables d, h, hjoinTables]
  exact (Document.mk.injEq ..).mpr ⟨hp, ht, he, hr, hj⟩

/-- Blocks with words for names, and texts on one line. -/
structure Legible (d : Document) : Prop where
  tables : ∀ t ∈ d.tables, t.Legible
  enums : ∀ e ∈ d.enums, e.Legible
  references : ∀ r ∈ d.references, r.Legible
  joinTables : ∀ j ∈ d.joinTables, j.Legible

theorem Legible.parts {d : Document} (h : d.Legible) : ∀ b ∈ d.parts, b.Legible := by
  simp only [Document.parts, List.forall_mem_append, List.forall_mem_map]
  exact ⟨⟨⟨h.tables, h.enums⟩, h.references⟩, h.joinTables⟩

/-- The text of a document tells its blocks. -/
theorem eq_of_text {d d' : Document} (hd : d.Legible) (hd' : d'.Legible)
    (hp : d.project = d'.project) (h : d.text = d'.text) : d = d' := by
  refine eq_of_parts hp ?_
  have hopening : d.opening = d'.opening := by rw [opening, opening, hp]
  have hlines {d : Document} (hd : d.Legible) :
      ∀ line ∈ d.parts.flatMap (fun b => "" :: b.lines), ∀ c ∈ line.toList, c ≠ '\n' := by
    intro line hline c hc hn
    obtain ⟨b, hb, hline⟩ := List.mem_flatMap.mp hline
    obtain rfl | hline := List.mem_cons.mp hline
    · cases hc
    · exact (hd.parts b hb).oneLine line hline (hn ▸ hc)
  replace h := congrArg String.toList h
  rw [toList_text, toList_text, hopening] at h
  have hsep := congrArg (· ++ []) (List.append_cancel_left h)
  obtain ⟨hparts, -⟩ := separated_inj (c := '\n') (p := (· ≠ '\n')) (by decide) (hlines hd)
    (hlines hd') stops_nil stops_nil hsep
  refine flatMap_inj (fun _ => List.cons_ne_nil _ _) (fun x hx y hy r s heq => ?_) hparts
  exact Block.lines_inj (hd.parts x hx) (hd'.parts y hy) (List.cons.inj heq).2

end Document

end Dbml
