import FenceFacts.Text.Json
import Mathlib.Data.List.SplitBy
import Mathlib.Tactic.Common

/-!
# FenceFacts — reading JSON

A reader takes a value off the front of a text and leaves the rest.  Strings,
words and objects tell where they end; a number goes on as long as there are
digits, so it is read as it was written only if no digit comes next.  Nothing
but the mark of the next field or the end of an object follows a number.

Strings are read by the rules of JSON: a backslash is followed by a letter or
by `u` and four digits, and no character below U+0020 stands for itself.

## Results

* `reads_string`, `reads_number`, `reads_bool`, `reads_oneOf` — the values.
* `reads_object`, `reads_member`, `reads_close` — objects, field by field.
-/

namespace FenceFacts

/-- Takes a value off the front of a text. -/
abbrev JsonReader (α : Type) := StateT Text Option α

namespace JsonReader

variable {α β : Type}

-- ---------------------------------------------------------------------------
-- Strings
-- ---------------------------------------------------------------------------

/-- The character that a letter behind a backslash stands for. -/
def unescape? (letter : Char) : Option Char :=
  ((('/', '/') :: jsonEscapes).find? fun (_, l) => l == letter).map (·.1)

def hexValue? (c : Char) : Option Nat :=
  if c.isDigit then some (c.toNat - '0'.toNat)
  else if 'a' ≤ c && c ≤ 'f' then some (c.toNat - 'a'.toNat + 10)
  else if 'A' ≤ c && c ≤ 'F' then some (c.toNat - 'A'.toNat + 10)
  else none

/-- The character with the number that four digits say.  A half of a surrogate
pair is none: what lies beyond U+FFFF is written as it is. -/
def escapedChar? (a b c d : Char) : Option Char := do
  let code := (← hexValue? a) * 4096 + (← hexValue? b) * 256 + (← hexValue? c) * 16 + (← hexValue? d)
  if code.isValidChar then some (Char.ofNat code) else none

/-- A string behind its opening quote, and what follows the closing one. -/
def stringBody : Text → Option (Text × Text)
  | [] => none
  | '"' :: rest => some ([], rest)
  | '\\' :: 'u' :: a :: b :: c :: d :: rest => do
    let char ← escapedChar? a b c d
    (stringBody rest).map (Prod.map (char :: ·) id)
  | '\\' :: letter :: rest => do
    let char ← unescape? letter
    (stringBody rest).map (Prod.map (char :: ·) id)
  | char :: rest =>
    if char < ' ' then none else (stringBody rest).map (Prod.map (char :: ·) id)

-- ---------------------------------------------------------------------------
-- Readers
-- ---------------------------------------------------------------------------

/-- The character `c`. -/
def mark (c : Char) : JsonReader Unit
  | [] => none
  | c' :: rest => if c' = c then some ((), rest) else none

def string : JsonReader Text := do
  mark '"'
  stringBody

def number : JsonReader Nat := fun t =>
  match t.takeWhile Char.isDigit with
  | [] => none
  | digits => some (Nat.ofDigitChars 10 digits 0, t.dropWhile Char.isDigit)

/-- The characters of `word`, outside of a string. -/
def literal (word : Text) : JsonReader Unit := word.forM mark

def bool : JsonReader Bool :=
  (do literal "true".toList; return true) <|> (do literal "false".toList; return false)

/-- A string from the table. -/
def oneOf (table : List (String × α)) : JsonReader α := do
  let word ← string
  fun rest => (table.lookup (String.ofList word)).map (·, rest)

/-- A field of an object behind the mark that it comes after. -/
def member (before : Char) (key : String) (value : JsonReader α) : JsonReader α := do
  mark before
  let word ← string
  guard (word = key.toList)
  mark ':'
  value

/-- The end of an object whose fields make up `a`. -/
def close (a : α) : JsonReader α := do
  mark '\x7d'
  return a

-- ---------------------------------------------------------------------------
-- What a reader reads
-- ---------------------------------------------------------------------------

/-- The reader takes `written` off any text and has the value `a`. -/
def Reads (reader : JsonReader α) (written : Text) (a : α) : Prop :=
  ∀ rest : Text, reader (written ++ rest) = some (a, rest)

/-- It does so where no digit comes next. -/
def ReadsBefore (reader : JsonReader α) (written : Text) (a : α) : Prop :=
  ∀ (c : Char) (rest : Text), c.isDigit = false →
    reader (written ++ c :: rest) = some (a, c :: rest)

section Reads

variable {r : JsonReader α} {k : α → JsonReader β} {s t : Text} {a : α} {b : β}

theorem Reads.before (h : Reads r s a) : ReadsBefore r s a := fun c rest _ => h (c :: rest)

theorem bind_of_some {input rest : Text} (h : r input = some (a, rest)) :
    (r >>= k) input = k a rest := by
  show StateT.bind r k input = _
  rw [StateT.bind, h]
  rfl

/-- One reader **after the other**. -/
theorem Reads.bind (hr : Reads r s a) (hk : Reads (k a) t b) : Reads (r >>= k) (s ++ t) b := by
  intro rest
  rw [List.append_assoc, bind_of_some (hr (t ++ rest)), hk rest]

theorem ReadsBefore.bind {c : Char} {cs : Text} (hc : c.isDigit = false) (hr : ReadsBefore r s a)
    (hk : Reads (k a) (c :: cs) b) : Reads (r >>= k) (s ++ c :: cs) b := by
  intro rest
  rw [List.append_assoc, List.cons_append, bind_of_some (hr c (cs ++ rest) hc)]
  exact hk rest

theorem Reads.bind_before (hr : Reads r s a) (hk : ReadsBefore (k a) t b) :
    ReadsBefore (r >>= k) (s ++ t) b := by
  intro c rest hc
  rw [List.append_assoc, bind_of_some (hr (t ++ c :: rest)), hk c rest hc]

theorem reads_pure (a : α) : Reads (pure a) [] a := fun _ => rfl

theorem reads_mark (c : Char) : Reads (mark c) [c] () := by
  intro rest
  show mark c (c :: rest) = _
  rw [mark, if_pos rfl]

theorem reads_guard {p : Prop} [Decidable p] (h : p) : Reads (guard p) [] () := by
  intro rest
  rw [guard, if_pos h]
  rfl

end Reads

-- ---------------------------------------------------------------------------
-- Values
-- ---------------------------------------------------------------------------

/-- A character is read back, **escaped or not**. -/
theorem stringBody_jsonChar (c : Char) (rest : Text) :
    stringBody (jsonChar c ++ rest) = (stringBody rest).map (Prod.map (c :: ·) id) := by
  unfold jsonChar jsonEscape?
  split
  · next letter hletter =>
    -- a letter
    have hletters : ∀ e ∈ jsonEscapes, unescape? e.2 = some e.1 ∧ e.2 ≠ 'u' := by decide
    obtain ⟨before, after, hescapes, -⟩ := List.lookup_eq_some_iff.mp hletter
    obtain ⟨hunescape, hu⟩ := hletters (c, letter) (by rw [hescapes]; simp)
    show stringBody ('\\' :: letter :: rest) = _
    rw [stringBody, hunescape]
    · rfl
    · exact fun _ _ _ _ _ h => absurd h hu
  · next hnone =>
    split
    · next hcontrol =>
      -- four digits, the first two of which are zero
      have hdigits : ∀ n < 32,
          escapedChar? '0' '0' (Nat.digitChar (n / 16)) (Nat.digitChar (n % 16)) =
            some (Char.ofNat n) := by decide
      have hchar := hdigits c.toNat hcontrol
      rw [Char.ofNat_toNat] at hchar
      show stringBody ('\\' :: 'u' :: '0' :: '0' :: _ :: _ :: rest) = _
      rw [stringBody, hchar]
      rfl
    · next hcontrol =>
      -- itself, which is neither a quote nor a backslash
      have hquote : c ≠ '"' := by
        rintro rfl
        exact absurd hnone (by decide)
      have hbackslash : c ≠ '\\' := by
        rintro rfl
        exact absurd hnone (by decide)
      show stringBody (c :: rest) = _
      rw [stringBody, if_neg hcontrol]
      all_goals simp [hquote, hbackslash]

theorem stringBody_flatMap (t rest : Text) :
    stringBody (t.flatMap jsonChar ++ '"' :: rest) = some (t, rest) := by
  induction t with
  | nil => rfl
  | cons c t ih =>
    rw [List.flatMap_cons, List.append_assoc, stringBody_jsonChar, ih]
    rfl

/-- What stands between the quotes of a string is its characters, whatever
pieces they are written in. -/
theorem flatten_jsonString (t : Text) :
    (jsonString t).flatten = '"' :: (t.flatMap jsonChar ++ ['"']) := by
  have hruns : (jsonRuns t).flatten = t.flatMap jsonChar := by
    have hflatten := List.flatten_splitBy
      (fun a b => (jsonEscape? a).isNone && (jsonEscape? b).isNone) t
    conv_rhs => rw [← hflatten, ← List.flatMap_id, List.flatMap_assoc]
    rfl
  rw [jsonString, List.flatten_append, List.flatten_cons, hruns]
  rfl

theorem reads_string (t : Text) : Reads string (jsonString t).flatten t := by
  intro rest
  rw [flatten_jsonString]
  have hmark : mark '"' ('"' :: (t.flatMap jsonChar ++ ['"']) ++ rest) =
      some ((), t.flatMap jsonChar ++ '"' :: rest) := by
    rw [List.cons_append, List.append_assoc]
    exact reads_mark '"' _
  rw [string, bind_of_some hmark, stringBody_flatMap]

/-- A number is read to **the last digit**. -/
theorem reads_number (n : Nat) : ReadsBefore number (jsonNumber n).flatten n := by
  intro c rest hc
  have hdigits : ∀ d ∈ Nat.toDigits 10 n, d.isDigit = true := fun d hd =>
    Nat.isDigit_of_mem_toDigits (by decide) (by decide) hd
  have hflatten : (jsonNumber n).flatten = Nat.toDigits 10 n := List.flatten_singleton
  have htake : (Nat.toDigits 10 n ++ c :: rest).takeWhile Char.isDigit = Nat.toDigits 10 n := by
    rw [List.takeWhile_append_of_pos hdigits, List.takeWhile_cons_of_neg (by simp [hc]),
      List.append_nil]
  have hdrop : (Nat.toDigits 10 n ++ c :: rest).dropWhile Char.isDigit = c :: rest := by
    rw [List.dropWhile_append_of_pos hdigits, List.dropWhile_cons_of_neg (by simp [hc])]
  rw [hflatten, number, htake, hdrop]
  split
  · next hnil => exact absurd hnil Nat.toDigits_ne_nil
  · rw [Nat.ofDigitChars_ten_toDigits]

theorem reads_bool (b : Bool) : Reads bool (jsonBool b).flatten b := by
  cases b <;> exact fun rest => rfl

theorem reads_oneOf {table : List (String × α)} {word : String} {a : α}
    (h : table.lookup word = some a) : Reads (oneOf table) (jsonWord word).flatten a := by
  intro rest
  have hword : string ((jsonWord word).flatten ++ rest) = some (word.toList, rest) :=
    reads_string word.toList rest
  rw [oneOf, bind_of_some hword, String.ofList_toList, h]
  rfl

-- ---------------------------------------------------------------------------
-- Objects
-- ---------------------------------------------------------------------------

/-- A field of an object with the mark it comes after. -/
def memberText (before : Char) (key : String) (value : JsonPieces) : Text :=
  before :: (jsonField key value).flatten

/-- The rest of an object, from the mark behind a field on. -/
def membersText : List (String × JsonPieces) → Text
  | [] => ['\x7d']
  | (key, value) :: fields => memberText ',' key value ++ membersText fields

theorem flatten_jsonObject_cons (key : String) (value : JsonPieces)
    (fields : List (String × JsonPieces)) :
    (jsonObject ((key, value) :: fields)).flatten =
      memberText '\x7b' key value ++ membersText fields := by
  have hbody (key : String) (value : JsonPieces) :
      ([[',']].intercalate (((key, value) :: fields).map fun f => jsonField f.1 f.2)).flatten ++
        ['\x7d'] = (jsonField key value).flatten ++ membersText fields := by
    induction fields generalizing key value with
    | nil =>
      rw [List.map_singleton, List.intercalate_singleton]
      rfl
    | cons field fields ih =>
      obtain ⟨key', value'⟩ := field
      rw [List.map_cons, List.map_cons, List.intercalate_cons_cons, List.flatten_append,
        List.flatten_append, List.append_assoc, List.append_assoc]
      exact congrArg (fun t => (jsonField key value).flatten ++ ([','] ++ t)) (ih key' value')
  rw [jsonObject, List.cons_append, List.flatten_cons, List.flatten_append, List.flatten_singleton,
    hbody]
  rfl

theorem exists_membersText_eq_cons (fields : List (String × JsonPieces)) :
    ∃ c cs, membersText fields = c :: cs ∧ c.isDigit = false := by
  cases fields with
  | nil => exact ⟨'\x7d', [], rfl, by decide⟩
  | cons field fields => exact ⟨',', _, rfl, by decide⟩

section Members

variable {value : JsonReader α} {v : JsonPieces} {a : α} {k : α → JsonReader β} {b : β}

theorem readsBefore_member (before : Char) (key : String) (h : ReadsBefore value v.flatten a) :
    ReadsBefore (member before key value) (memberText before key v) a := by
  have hkey : memberText before key v =
      [before] ++ ((jsonWord key).flatten ++ ([] ++ ([':'] ++ v.flatten))) := by
    rw [memberText, jsonField, List.flatten_append, List.flatten_cons]
    rfl
  rw [hkey]
  exact (reads_mark before).bind_before ((reads_string key.toList).bind_before
    ((reads_guard rfl).bind_before ((reads_mark ':').bind_before h)))

/-- A field **and the rest of the object**. -/
theorem reads_member {key : String} (h : ReadsBefore value v.flatten a)
    {fields : List (String × JsonPieces)} (hk : Reads (k a) (membersText fields) b) :
    Reads (member ',' key value >>= k) (membersText ((key, v) :: fields)) b := by
  obtain ⟨c, cs, hfields, hc⟩ := exists_membersText_eq_cons fields
  rw [hfields] at hk
  rw [membersText, hfields]
  exact (readsBefore_member ',' key h).bind hc hk

/-- The first field, and the rest of the object. -/
theorem reads_object {key : String} (h : ReadsBefore value v.flatten a)
    {fields : List (String × JsonPieces)} (hk : Reads (k a) (membersText fields) b) :
    Reads (member '\x7b' key value >>= k) (jsonObject ((key, v) :: fields)).flatten b := by
  obtain ⟨c, cs, hfields, hc⟩ := exists_membersText_eq_cons fields
  rw [hfields] at hk
  rw [flatten_jsonObject_cons, hfields]
  exact (readsBefore_member '\x7b' key h).bind hc hk

theorem reads_close (a : α) : Reads (close a) (membersText []) a :=
  (reads_mark '\x7d').bind (reads_pure a)

end Members

end JsonReader

end FenceFacts
