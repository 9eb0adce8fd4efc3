import FenceFacts.Proofs.Toml.Documents
import FenceFacts.Settings.Format

/-!
# FenceFacts — settings read back

Settings are written as the lines of two tables.  Those lines are read back as
they were written, and they make up tables in which every setting stands under
its name.  So what is read is what was written, whatever the path for the
facts looks like, and also when there is none.

## Results

* `linesFrom_write`  — the lines of what is written.
* `ofFields?_tables` — the settings that are in the tables.
* `read?_write`      — settings, read back.
-/

namespace FenceFacts

-- ---------------------------------------------------------------------------
-- Fields
-- ---------------------------------------------------------------------------

section Fields

variable {α : Type} {name other : String} {default : α} {read? : TomlValue → Option α}
  {fields : TomlFields} {v : TomlValue} {names : List String}

theorem TomlFields.setting?_cons_self :
    setting? name default read? ((name.toList, v) :: fields) = read? v := by
  rw [setting?, List.lookup_cons_self, Option.elim_some]

theorem TomlFields.setting?_cons_of_ne (h : name ≠ other) :
    setting? name default read? ((other.toList, v) :: fields) =
      setting? name default read? fields := by
  have hne : (name.toList == other.toList) = false := by
    simpa using fun heq => h (String.toList_injective heq)
  rw [setting?, setting?, List.lookup_cons, hne]

/-- Fields pass that have the right names. -/
theorem TomlFields.passing?_of_names (h : ∀ p ∈ fields, ∃ name ∈ names, p.1 = name.toList) :
    fields.passing? names = some fields := by
  rw [passing?, if_pos]
  rw [List.all_eq_true]
  intro p hp
  obtain ⟨name, hname, heq⟩ := h p hp
  simp [heq, hname]

end Fields

namespace SourceType

/-- Every source type is told by its word. -/
@[simp] theorem ofWord?_word (s : SourceType) : ofWord? s.word.toList = some s := by
  cases s <;> rfl

end SourceType

@[simp] theorem TomlValue.version?_integer (n : UInt16) :
    version? (.integer n.toNat) = some n := by
  have hn : (n.toNat : Int) < UInt16.size := Int.ofNat_lt.mpr n.toNat_lt_size
  rw [version?, if_pos ⟨Int.natCast_nonneg _, hn⟩, Int.toNat_natCast, UInt16.ofNat_toNat]

-- ---------------------------------------------------------------------------
-- Settings
-- ---------------------------------------------------------------------------

namespace Settings

open TomlReader

variable {s : Settings} {name : String} {t value : Text} {v : TomlValue} {ls : List TomlLine}

def extractorFields (s : Settings) : TomlFields :=
  [("ecma_version".toList, .integer s.ecmaVersion.toNat),
    ("source_type".toList, .string s.sourceType.word.toList),
    ("extract_lines".toList, .boolean s.extractLines)]

/-- There is no field for a path that is not set. -/
def outputFields (s : Settings) : TomlFields :=
  s.factsPath.elim [] fun path => [("facts_path".toList, .string path)]

/-- The tables that settings are written as. -/
def tables (s : Settings) : List (Text × TomlFields) :=
  [("extractor".toList, s.extractorFields), ("output".toList, s.outputFields)]

/-- Settings are what their fields say. -/
theorem ofFields?_eq {fields : TomlFields} (extractor output : TomlFields)
    (hfields : fields.passing? sectionNames = some fields)
    (hextractor : fields.setting? "extractor" [] (TomlValue.section? extractorNames) =
      some extractor)
    (houtput : fields.setting? "output" [] (TomlValue.section? outputNames) = some output)
    (hversion : extractor.setting? "ecma_version" 2020 TomlValue.version? = some s.ecmaVersion)
    (htype : extractor.setting? "source_type" .auto TomlValue.sourceType? = some s.sourceType)
    (hlines : extractor.setting? "extract_lines" true TomlValue.boolean? = some s.extractLines)
    (hpath : output.setting? "facts_path" none (fun v => v.text?.map some) = some s.factsPath) :
    ofFields? fields = some s := by
  simp [ofFields?, hfields, hextractor, houtput, hversion, htype, hlines, hpath]

/-- The tables say what the settings are. -/
theorem ofFields?_tables (s : Settings) :
    ofFields? (documentOf s.tables) = some s := by
  have hextractor : s.extractorFields.passing? extractorNames = some s.extractorFields :=
    TomlFields.passing?_of_names (by simp [extractorFields, extractorNames])
  have houtput : s.outputFields.passing? outputNames = some s.outputFields := by
    refine TomlFields.passing?_of_names ?_
    cases h : s.factsPath <;> simp [outputFields, outputNames, h]
  refine ofFields?_eq s.extractorFields s.outputFields
    (TomlFields.passing?_of_names (by simp [tables, sectionNames])) ?_ ?_ ?_ ?_ ?_ ?_
  · exact TomlFields.setting?_cons_self.trans hextractor
  · exact (TomlFields.setting?_cons_of_ne (by decide)).trans
      (TomlFields.setting?_cons_self.trans houtput)
  · exact TomlFields.setting?_cons_self.trans (TomlValue.version?_integer _)
  · exact (TomlFields.setting?_cons_of_ne (by decide)).trans
      (TomlFields.setting?_cons_self.trans (SourceType.ofWord?_word _))
  · exact (TomlFields.setting?_cons_of_ne (by decide)).trans
      ((TomlFields.setting?_cons_of_ne (by decide)).trans TomlFields.setting?_cons_self)
  · rw [outputFields]
    cases s.factsPath with
    | none => rfl
    | some path => exact TomlFields.setting?_cons_self

/-- What is written for a field is the line of the field. -/
theorem linesFrom_writeField (h : LinesFrom ls t) (hname : IsBare name.toList)
    (hv : v.ReadFrom value) (hblank : ∀ c ∈ value.head?, isTomlBlank c = false) :
    LinesFrom (.field { name := name.toList } v :: ls) (writeField name value ++ t) := by
  have hline := h.cons (readFrom_field hname hv hblank)
  simpa [writeField] using hline

theorem linesFrom_string (name : String) (h : LinesFrom ls t) (hname : IsBare name.toList)
    (value : Text) :
    LinesFrom (.field { name := name.toList } (.string value) :: ls)
      (writeField name value.writeToml ++ t) := by
  refine linesFrom_writeField h hname (readFrom_writeToml value) fun c hc => ?_
  obtain ⟨q, body, hopening, -⟩ := read_writeToml value [] (by simp)
  rw [List.append_nil] at hopening
  obtain ⟨y, hy | hy⟩ := exists_of_opening? hopening
  · rw [hy] at hc
    obtain rfl := Option.some.inj hc
    rfl
  · rw [hy] at hc
    obtain rfl := Option.some.inj hc
    rfl

/-- What stands without quotes begins with no blank. -/
theorem linesFrom_word (name : String) (h : LinesFrom ls t) (hname : IsBare name.toList)
    (hne : value ≠ []) (hword : ∀ c ∈ value, c.isAlphanum = true)
    (hvalue : TomlScalar.value? value = some v) :
    LinesFrom (.field { name := name.toList } v :: ls) (writeField name value ++ t) := by
  refine linesFrom_writeField h hname (readFrom_word hne hword hvalue) fun c hc => ?_
  exact isTomlBlank_of_isBareChar (isBareChar_of_isAlphanum (hword c (List.mem_of_mem_head? hc)))

theorem linesFrom_number (name : String) (h : LinesFrom ls t) (hname : IsBare name.toList)
    (n : UInt16) :
    LinesFrom (.field { name := name.toList } (.integer n.toNat) :: ls)
      (writeField name (Nat.toDigits 10 n.toNat) ++ t) := by
  have hbound : (n.toNat : Int) < TomlScalar.integerBound :=
    Int.lt_of_lt_of_le (Int.ofNat_lt.mpr n.toNat_lt_size) (by decide)
  exact linesFrom_word name h hname Nat.toDigits_ne_nil (fun _ => isAlphanum_of_mem_toDigits)
    (TomlScalar.value?_toDigits hbound)

theorem linesFrom_boolean (name : String) (h : LinesFrom ls t) (hname : IsBare name.toList)
    (b : Bool) :
    LinesFrom (.field { name := name.toList } (.boolean b) :: ls)
      (writeField name (if b then "true" else "false").toList ++ t) := by
  cases b
  · exact linesFrom_word name h hname (by decide) (List.all_eq_true.mp rfl) rfl
  · exact linesFrom_word name h hname (by decide) (List.all_eq_true.mp rfl) rfl

/-- What is written for the tables, each with its header in front. -/
theorem write_eq (s : Settings) :
    s.write = '[' :: "extractor".toList ++ [']'] ++ '\n' ::
      (writeField "ecma_version" (Nat.toDigits 10 s.ecmaVersion.toNat) ++
        (writeField "source_type" (Text.writeToml s.sourceType.word.toList) ++
          (writeField "extract_lines" (if s.extractLines then "true" else "false").toList ++
            '\n' :: ('[' :: "output".toList ++ [']'] ++ '\n' ::
              s.factsPath.elim [] fun path => writeField "facts_path" path.writeToml)))) := by
  have happend (a b c d : Text) :
      "[extractor]\n".toList ++ a ++ b ++ c ++ "\n[output]\n".toList ++ d =
        '[' :: "extractor".toList ++ [']'] ++ '\n' :: (a ++ (b ++ (c ++ '\n' ::
          ('[' :: "output".toList ++ [']'] ++ '\n' :: d)))) := by
    simp
  exact happend _ _ _ _

/-- What is written are **the lines of the tables**. -/
theorem linesFrom_write (s : Settings) : LinesFrom (tableLines s.tables) s.write := by
  have hpath : LinesFrom (fieldLines s.outputFields)
      (s.factsPath.elim [] fun path => writeField "facts_path" path.writeToml) := by
    rw [outputFields]
    cases s.factsPath with
    | none => exact .nil
    | some path => simpa using linesFrom_string "facts_path" .nil (by decide) path
  have houtput := hpath.cons (readFrom_header "output".toList (by decide))
  have hlines := linesFrom_boolean "extract_lines" houtput.gap (by decide) s.extractLines
  have htype := linesFrom_string "source_type" hlines (by decide) s.sourceType.word.toList
  have hversion := linesFrom_number "ecma_version" htype (by decide) s.ecmaVersion
  have hextractor := hversion.cons (readFrom_header "extractor".toList (by decide))
  rw [write_eq]
  simpa [tables, extractorFields] using hextractor

/-- Settings are read **as they were written**. -/
theorem read?_write (s : Settings) : read? s.write = some s := by
  have hmark : s.write.head? ≠ some byteOrderMark := by
    rw [write_eq]
    exact fun heq => absurd (Option.some.inj heq) (by decide)
  have hfields : ∀ table ∈ s.tables, (table.2.map Prod.fst).Nodup := by
    cases h : s.factsPath <;> simp [tables, extractorFields, outputFields, h]
  have htables : TomlFields.ofLines? (tableLines s.tables) = some (documentOf s.tables) :=
    ofLines?_tableLines (by simp [tables]) hfields
  rw [read?, read?_of_linesFrom (linesFrom_write s) hmark, htables, Option.bind_some,
    ofFields?_tables]

end Settings

end FenceFacts
