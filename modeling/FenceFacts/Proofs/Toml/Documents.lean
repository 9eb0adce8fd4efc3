import FenceFacts.Proofs.Toml.Values

/-!
# FenceFacts — TOML documents read back

A document is read line by line.  What stands on a line is the header of a
table, by its name in square brackets, or a field, by its name and what is
written for its value.  Between lines there can be empty ones.  So a document
that is put together line by line is read as those lines.

A header opens a table, and the fields go there that stand between it and the
next header.  So lines are read as tables if nothing has the same name twice.

## Results

* `LinesFrom.nil`, `LinesFrom.gap`, `LinesFrom.cons` — documents, put together.
* `read?_of_linesFrom`  — what is read from a document are its lines.
* `readFrom_header`, `readFrom_field` — lines.
* `ofLines?_tableLines` — tables.
-/

namespace FenceFacts

namespace TomlReader

open TomlQuotes

variable {t rest name written : Text} {v : TomlValue} {c : Char} {ls : List TomlLine}

@[simp] theorem run_skip (f : Text → Option Text) :
    (skip f).run t = (f t).map fun rest => ((), rest) := rfl

@[simp] theorem run_skipBlanks : skipBlanks.run t = some ((), t.dropWhile isTomlBlank) := rfl

@[simp] theorem run_skipGaps :
    skipGaps.run t = (afterGaps? false t).map fun rest => ((), rest) := rfl

@[simp] theorem run_takeRun (p : Char → Bool) :
    (takeRun p).run t = some (t.takeWhile p, t.dropWhile p) := rfl

@[simp] theorem run_expect (c : Char) : (expect c).run (c :: t) = some ((), t) := by
  simp [expect, TomlScalar.after?]

-- ---------------------------------------------------------------------------
-- Names
-- ---------------------------------------------------------------------------

/-- A name that needs no quotes. -/
def IsBare (name : Text) : Prop := name ≠ [] ∧ ∀ c ∈ name, isBareChar c = true

instance : Decidable (IsBare name) :=
  decidable_of_iff (name ≠ [] ∧ name.all isBareChar = true) (by rw [IsBare, List.all_eq_true])

theorem IsBare.exists_cons (h : IsBare name) :
    ∃ d ds, name = d :: ds ∧ isBareChar d = true := by
  obtain ⟨d, ds, rfl⟩ := List.exists_cons_of_ne_nil h.1
  exact ⟨d, ds, rfl, h.2 d List.mem_cons_self⟩

/-- A name without quotes goes as far as its characters. -/
theorem run_name (hopening : opening? t = none) (hrun : t.takeWhile isBareChar ≠ []) :
    TomlReader.name.run t = some (t.takeWhile isBareChar, t.dropWhile isBareChar) := by
  simp [TomlReader.name, hopening, hrun]

/-- A key is a single name when no dot follows it. -/
theorem run_names {n : Nat} (hblank : t.dropWhile isTomlBlank = t)
    (hname : TomlReader.name.run t = some (name, rest))
    (hdot : (rest.dropWhile isTomlBlank).head? ≠ some '.') :
    (names (n + 1)).run t = some ({ name }, rest.dropWhile isTomlBlank) := by
  simp only [names, StateT.run_bind, run_skipBlanks, hblank, hname, StateT.run_get,
    Option.pure_def, Option.bind_eq_bind, Option.bind_some]
  split
  · next heq =>
    rw [heq] at hdot
    exact absurd rfl hdot
  · rfl

/-- A bare name is a key, up to a character that no name can have. -/
theorem run_key (hname : IsBare name) (hc : isBareChar c = false)
    (hdot : ((c :: rest).dropWhile isTomlBlank).head? ≠ some '.') :
    key.run (name ++ c :: rest) = some ({ name }, (c :: rest).dropWhile isTomlBlank) := by
  obtain ⟨d, ds, hcons, hd⟩ := hname.exists_cons
  obtain ⟨hne, hbare⟩ := hname
  have htake : (name ++ c :: rest).takeWhile isBareChar = name := by
    rw [List.takeWhile_append_of_pos hbare, List.takeWhile_cons_of_neg (by simp [hc]),
      List.append_nil]
  have hdrop : (name ++ c :: rest).dropWhile isBareChar = c :: rest := by
    rw [List.dropWhile_append_of_pos hbare, List.dropWhile_cons_of_neg (by simp [hc])]
  have hfirst : name ++ c :: rest = d :: (ds ++ c :: rest) := by
    rw [hcons, List.cons_append]
  have hopening : opening? (name ++ c :: rest) = none := by
    rw [hfirst]
    exact opening?_eq_none (ne_of_pos_of_neg hd rfl) (ne_of_pos_of_neg hd rfl) _
  have hblank : (name ++ c :: rest).dropWhile isTomlBlank = name ++ c :: rest := by
    rw [hfirst, List.dropWhile_cons_of_neg (by simp [isTomlBlank_of_isBareChar hd])]
  have hread := run_name hopening (htake.symm ▸ hne)
  rw [htake, hdrop] at hread
  rw [key, deepest]
  exact run_names hblank hread hdot

-- ---------------------------------------------------------------------------
-- Lines
-- ---------------------------------------------------------------------------

/-- The line is read from the text, which neither a blank nor a comment
precedes and which goes up to the end of the line. -/
structure ReadFrom (l : TomlLine) (written : Text) : Prop where
  starts : ∀ rest : Text, afterGaps? false (written ++ rest) = some (written ++ rest)
  reads : ∀ rest : Text, line.run (written ++ '\n' :: rest) = some (l, '\n' :: rest)

theorem afterGaps?_cons (hc : isTomlBlank c = false) (hends : c ∉ ['\n', '\r', '#']) :
    afterGaps? false (c :: t) = some (c :: t) := by
  simp only [List.mem_cons, List.not_mem_nil, or_false, not_or] at hends
  simp [afterGaps?, hc, hends]

theorem run_line_header {k : TomlKey} (hkey : key.run t = some (k, ']' :: rest))
    (hne : t.head? ≠ some '[') : line.run ('[' :: t) = some (.header k, rest) := by
  unfold line
  simp only [StateT.run_bind, StateT.run_get, Option.pure_def, Option.bind_eq_bind,
    Option.bind_some]
  split
  · next heq =>
    rw [(List.cons.inj heq).2] at hne
    exact absurd rfl hne
  · next heq =>
    obtain ⟨-, rfl⟩ := List.cons.inj heq
    simp [hkey]
  · next h => exact absurd rfl (h t)

theorem run_line_field {k : TomlKey} {t' : Text} (hne : t.head? ≠ some '[')
    (hkey : key.run t = some (k, '=' :: t'))
    (hvalue : (value deepest).run (t'.dropWhile isTomlBlank) = some (v, rest)) :
    line.run t = some (.field k v, rest) := by
  have hsign : ('=' :: t').dropWhile isTomlBlank = '=' :: t' :=
    List.dropWhile_cons_of_neg (by decide)
  unfold line
  simp only [StateT.run_bind, StateT.run_get, Option.pure_def, Option.bind_eq_bind,
    Option.bind_some]
  split
  · exact absurd rfl hne
  · exact absurd rfl hne
  · simp [field, hkey, hsign, hvalue]

/-- A table is opened by **its name in square brackets**. -/
theorem readFrom_header (name : Text) (hname : IsBare name) :
    ReadFrom (.header { name }) ('[' :: name ++ [']']) where
  starts _ := afterGaps?_cons rfl (by decide)
  reads rest := by
    have hkey : key.run (name ++ ']' :: '\n' :: rest) =
        some ({ name }, ']' :: '\n' :: rest) :=
      run_key hname rfl (by simp [isTomlBlank])
    have hbracket : (name ++ ']' :: '\n' :: rest).head? ≠ some '[' := by
      obtain ⟨d, ds, rfl, hd⟩ := hname.exists_cons
      exact fun heq => ne_of_pos_of_neg hd rfl (Option.some.inj heq)
    simpa using run_line_header hkey hbracket

/-- A field is defined by **its name and what is written for its value**. -/
theorem readFrom_field (hname : IsBare name) (hv : v.ReadFrom written)
    (hblank : ∀ c ∈ written.head?, isTomlBlank c = false) :
    ReadFrom (.field { name } v) (name ++ " = ".toList ++ written) := by
  obtain ⟨d, ds, hcons, hd⟩ := hname.exists_cons
  constructor
  · intro rest
    have hfeed : d ≠ '\n' := ne_of_pos_of_neg hd rfl
    have hreturn : d ≠ '\r' := ne_of_pos_of_neg hd rfl
    have hcomment : d ≠ '#' := ne_of_pos_of_neg hd rfl
    rw [hcons]
    exact afterGaps?_cons (isTomlBlank_of_isBareChar hd) (by simp [hfeed, hreturn, hcomment])
  · intro rest
    have hkey : key.run (name ++ ' ' :: '=' :: ' ' :: (written ++ '\n' :: rest)) =
        some ({ name }, '=' :: ' ' :: (written ++ '\n' :: rest)) :=
      run_key hname rfl (by simp [isTomlBlank])
    have hdrop : (' ' :: (written ++ '\n' :: rest)).dropWhile isTomlBlank =
        written ++ '\n' :: rest := by
      rw [List.dropWhile_cons_of_pos rfl]
      cases written with
      | nil => exact List.dropWhile_cons_of_neg (by decide)
      | cons c cs => exact List.dropWhile_cons_of_neg (by simp [hblank c rfl])
    have hline := run_line_field (t := name ++ ' ' :: '=' :: ' ' :: (written ++ '\n' :: rest))
      (by rw [hcons]; exact fun heq => ne_of_pos_of_neg hd rfl (Option.some.inj heq))
      hkey (hdrop.symm ▸ hv rest)
    simpa using hline

-- ---------------------------------------------------------------------------
-- Documents
-- ---------------------------------------------------------------------------

/-- The document is read as these lines, if there are not too many of them. -/
structure LinesFrom (ls : List TomlLine) (t : Text) : Prop where
  fits : ls.length ≤ t.length
  reads : ∀ n, ls.length < n → (lines n).run t = some (ls, [])

theorem LinesFrom.nil : LinesFrom [] [] where
  fits := Nat.le_refl _
  reads n hn := by
    obtain ⟨m, rfl⟩ := Nat.exists_eq_succ_of_ne_zero (Nat.ne_of_gt hn)
    rfl

/-- Empty lines say nothing. -/
theorem LinesFrom.gap (h : LinesFrom ls t) : LinesFrom ls ('\n' :: t) where
  fits := Nat.le_succ_of_le h.fits
  reads n hn := by
    obtain ⟨m, rfl⟩ := Nat.exists_eq_succ_of_ne_zero (Nat.ne_of_gt (Nat.zero_lt_of_lt hn))
    rw [← h.reads (m + 1) hn]
    simp [lines, afterGaps?]

/-- A line in front of a document is the first one to be read. -/
theorem LinesFrom.cons {l : TomlLine} (hl : ReadFrom l written) (h : LinesFrom ls t) :
    LinesFrom (l :: ls) (written ++ '\n' :: t) where
  fits := by
    have hfits := h.fits
    simp only [List.length_cons, List.length_append]
    omega
  reads n hn := by
    obtain ⟨m, rfl⟩ := Nat.exists_eq_succ_of_ne_zero (Nat.ne_of_gt (Nat.zero_lt_of_lt hn))
    have hline := hl.reads t
    have hlines := h.reads m (by simpa using hn)
    simp [lines, hl.starts ('\n' :: t), hline, afterLine?, hlines]

/-- What is read from a document are **its lines**. -/
theorem read?_of_linesFrom (h : LinesFrom ls t) (hmark : t.head? ≠ some byteOrderMark) :
    TomlFields.read? t = TomlFields.ofLines? ls := by
  have hafter : TomlScalar.after? byteOrderMark t = none := by
    cases t with
    | nil => rfl
    | cons c cs => exact if_neg fun heq => hmark (congrArg some heq)
  have hlines := h.reads (t.length + 1) (Nat.lt_succ_of_le h.fits)
  simp [TomlFields.read?, hafter, hlines]

end TomlReader

-- ---------------------------------------------------------------------------
-- Tables
-- ---------------------------------------------------------------------------

/-- The lines of fields, each of which has a name of its own. -/
def fieldLines (fields : TomlFields) : List TomlLine :=
  fields.map fun (name, v) => .field { name } v

/-- The lines of tables, each of which has a header of its own. -/
def tableLines (tables : List (Text × TomlFields)) : List TomlLine :=
  tables.flatMap fun (name, fields) => .header { name } :: fieldLines fields

/-- The document that has these tables, opened by their headers. -/
def documentOf (tables : List (Text × TomlFields)) : TomlFields :=
  tables.map fun (name, fields) => (name, .table .header fields)

section Lines

variable {name : Text} {v : TomlValue} {fields : TomlFields} {tables : List (Text × TomlFields)}

@[simp] theorem fieldLines_nil : fieldLines [] = [] := rfl

@[simp] theorem fieldLines_cons :
    fieldLines ((name, v) :: fields) = .field { name } v :: fieldLines fields := rfl

@[simp] theorem tableLines_nil : tableLines [] = [] := rfl

@[simp] theorem tableLines_cons :
    tableLines ((name, fields) :: tables) =
      .header { name } :: (fieldLines fields ++ tableLines tables) := rfl

@[simp] theorem documentOf_nil : documentOf [] = [] := rfl

@[simp] theorem documentOf_cons :
    documentOf ((name, fields) :: tables) = (name, .table .header fields) :: documentOf tables :=
  rfl

end Lines

namespace TomlFields

variable {fields : TomlFields} {name : Text}

theorem lookup_eq_none (h : name ∉ fields.map Prod.fst) : fields.lookup name = none := by
  rw [List.lookup_eq_none_iff]
  intro p hp
  have hne : name ≠ p.1 := fun heq => h (heq ▸ List.mem_map_of_mem hp)
  simpa using hne

theorem add_of_not_mem (h : name ∉ fields.map Prod.fst) (v : TomlValue) :
    add name v fields = some (fields ++ [(name, v)]) := by
  rw [add, lookup_eq_none h]

theorem lookup_concat (h : name ∉ fields.map Prod.fst) (v : TomlValue) :
    (fields ++ [(name, v)]).lookup name = some v := by
  rw [List.lookup_append, lookup_eq_none h, Option.none_or, List.lookup_cons_self]

theorem replace_concat (h : name ∉ fields.map Prod.fst) (v w : TomlValue) :
    replace name w (fields ++ [(name, v)]) = fields ++ [(name, w)] := by
  have hsame : ∀ p ∈ fields, (if p.1 = name then (name, w) else p) = p := fun p hp =>
    if_neg fun heq : p.1 = name => h (heq ▸ List.mem_map_of_mem hp)
  rw [replace, List.map_append, List.map_congr_left hsame]
  simp

end TomlFields

namespace TomlDraft

open TomlFields

variable {before fields inner : TomlFields} {current : List Text} {name field : Text}
  {v : TomlValue}

/-- A header opens an empty table. -/
theorem extend_header (h : name ∉ before.map Prod.fst) (current : List Text) :
    extend ⟨before, current⟩ (.header { name }) =
      some ⟨before ++ [(name, .table .header [])], [name]⟩ := by
  simp [extend, change, openTable, lookup_eq_none h, add_of_not_mem h]

/-- A field goes to the table of the last header. -/
theorem extend_field (h : name ∉ before.map Prod.fst) (hfield : field ∉ inner.map Prod.fst)
    (v : TomlValue) :
    extend ⟨before ++ [(name, .table .header inner)], [name]⟩ (.field { name := field } v) =
      some ⟨before ++ [(name, .table .header (inner ++ [(field, v)]))], [name]⟩ := by
  simp [extend, change, define, lookup_concat h, replace_concat h, add_of_not_mem hfield,
    TableOrigin.admits]

theorem foldlM_extend_fields (h : name ∉ before.map Prod.fst) (inner : TomlFields)
    (hfields : ((inner ++ fields).map Prod.fst).Nodup) :
    (fieldLines fields).foldlM extend ⟨before ++ [(name, .table .header inner)], [name]⟩ =
      some ⟨before ++ [(name, .table .header (inner ++ fields))], [name]⟩ := by
  induction fields generalizing inner with
  | nil => simp
  | cons p fields ih =>
    obtain ⟨field, v⟩ := p
    have hfield : field ∉ inner.map Prod.fst := by
      intro hmem
      simp only [List.map_append, List.map_cons, List.nodup_append, List.mem_cons] at hfields
      exact hfields.2.2 field hmem field (Or.inl rfl) rfl
    have hrest := ih (inner ++ [(field, v)]) (by simpa using hfields)
    simpa [extend_field h hfield] using hrest

end TomlDraft

theorem foldlM_extend_tables (before : TomlFields) {tables : List (Text × TomlFields)}
    (hnames : (before.map Prod.fst ++ tables.map Prod.fst).Nodup)
    (hfields : ∀ table ∈ tables, (table.2.map Prod.fst).Nodup) (current : List Text) :
    ((tableLines tables).foldlM TomlDraft.extend ⟨before, current⟩).map (·.fields) =
      some (before ++ documentOf tables) := by
  induction tables generalizing before current with
  | nil => simp
  | cons table tables ih =>
    obtain ⟨name, fields⟩ := table
    obtain ⟨hfirst, hfields⟩ := List.forall_mem_cons.mp hfields
    have hname : name ∉ before.map Prod.fst := by
      intro hmem
      simp only [List.map_cons, List.nodup_append, List.mem_cons] at hnames
      exact hnames.2.2 name hmem name (Or.inl rfl) rfl
    have hrest := ih (before ++ [(name, .table .header fields)]) (by simpa using hnames) hfields
      [name]
    have hlines := TomlDraft.foldlM_extend_fields hname [] hfirst
    rw [List.nil_append] at hlines
    simpa [TomlDraft.extend_header hname, hlines] using hrest

/-- Lines with headers define **the tables of these headers**, in their order. -/
theorem ofLines?_tableLines {tables : List (Text × TomlFields)}
    (hnames : (tables.map Prod.fst).Nodup)
    (hfields : ∀ table ∈ tables, (table.2.map Prod.fst).Nodup) :
    TomlFields.ofLines? (tableLines tables) = some (documentOf tables) :=
  foldlM_extend_tables [] hnames hfields []

end FenceFacts
