import FenceFacts.Proofs.Token

/-!
# FenceFacts — tokens tile their script

Two things move the reader on: a rule that takes a lexeme, and the tail of a
regular expression behind its `/`.  Either way it goes on right behind what it
took, and it always takes something.  So the tokens lie end to end from the
start of the script to its end, also where a literal stays open or a character
starts no lexeme, and they are the script cut into pieces.

## Results

* `tiles_tokenizeFrom` — the spans lie end to end.
* `pairwise_tokenize`  — so tokens stand in order.
* `tokens_tile_script` — what that means for a script.
-/

namespace FenceFacts

-- ---------------------------------------------------------------------------
-- Spans end to end
-- ---------------------------------------------------------------------------

/-- The spans lie end to end from `start` to `stop`: each starts where the one
before it stops. -/
def Tiles (stop : Nat) : Nat → List Span → Prop
  | start, [] => start = stop
  | start, s :: ss => s.start = start ∧ Tiles stop s.stop ss

/-- Tokens that follow each other leave no gap, wherever reading begins. -/
theorem tiles_tokenizeFrom (offset : Nat) (regexAllowed : Bool) (previous : Option Token)
    (rest : Text) :
    Tiles (offset + rest.byteLength) offset
      ((tokenizeFrom offset regexAllowed previous rest).map Token.span) := by
  fun_induction tokenizeFrom offset regexAllowed previous rest with
  | case1 => rfl
  | case2 offset regexAllowed previous c cs lexeme token regexAllowed' ih =>
    have hlength : offset + Text.byteLength (c :: cs) =
        token.span.stop + lexeme.rest.byteLength := by
      rw [← nextLexeme_text_append_rest regexAllowed c cs, Text.byteLength_append, ← Nat.add_assoc]
    rw [List.map_cons, hlength]
    exact ⟨rfl, ih⟩

theorem Tiles.le_start {stop start : Nat} {spans : List Span} (h : Tiles stop start spans)
    (hforwards : ∀ s ∈ spans, s.start ≤ s.stop) : ∀ s ∈ spans, start ≤ s.start := by
  induction spans generalizing start with
  | nil => exact nofun
  | cons s ss ih =>
    obtain ⟨hstart, hrest⟩ := h
    obtain ⟨hs, hss⟩ := List.forall_mem_cons.mp hforwards
    refine List.forall_mem_cons.mpr ⟨Nat.le_of_eq hstart.symm, fun s' hs' => ?_⟩
    have hlater := ih hrest hss s' hs'
    omega

/-- Of spans that lie end to end, none starts before an earlier one stops. -/
theorem Tiles.pairwise {stop start : Nat} {spans : List Span} (h : Tiles stop start spans)
    (hforwards : ∀ s ∈ spans, s.start ≤ s.stop) :
    spans.Pairwise fun s s' => s.stop ≤ s'.start := by
  induction spans generalizing start with
  | nil => exact List.Pairwise.nil
  | cons s ss ih =>
    have hss := (List.forall_mem_cons.mp hforwards).2
    exact List.pairwise_cons.mpr ⟨h.2.le_start hss, ih h.2 hss⟩

-- ---------------------------------------------------------------------------
-- Both ends of a token
-- ---------------------------------------------------------------------------

namespace Token.LiesIn

variable {script : Text} {t : Token}

theorem isBoundary_stop (h : t.LiesIn script) : script.IsBoundary t.span.stop := by
  obtain ⟨-, before, after, rfl, hspan⟩ := h
  rw [hspan, ← Text.byteLength_append, ← List.append_assoc]
  exact Text.isBoundary_append (before ++ t.text) after

theorem slice?_eq (h : t.LiesIn script) :
    script.slice? t.span.start t.span.stop = some t.text := by
  obtain ⟨-, before, after, rfl, hspan⟩ := h
  rw [hspan]
  exact Text.slice?_append before t.text after

theorem start_lt_stop (h : t.LiesIn script) : t.span.start < t.span.stop := by
  obtain ⟨hne, before, after, -, hspan⟩ := h
  rw [hspan]
  have hpos := mt Text.byteLength_eq_zero_iff.mp hne
  show before.byteLength < before.byteLength + t.text.byteLength
  omega

end Token.LiesIn

-- ---------------------------------------------------------------------------
-- Scripts
-- ---------------------------------------------------------------------------

/-- The tokens of a script stand **in order**. -/
theorem pairwise_tokenize (script : Text) :
    (tokenize script).Pairwise fun t u => t.span.stop ≤ u.span.start := by
  refine List.pairwise_map.mp ((tiles_tokenizeFrom 0 true none script).pairwise fun s hs => ?_)
  obtain ⟨t, ht, rfl⟩ := List.mem_map.mp hs
  exact Nat.le_of_lt (liesIn_of_mem_tokenize ht).start_lt_stop

theorem tokenize_eq_nil_iff {script : Text} : tokenize script = [] ↔ script = [] := by
  constructor
  · intro h
    rw [← flatten_text_tokenize script, h]
    rfl
  · rintro rfl
    rw [tokenize, tokenizeFrom]

/-- Every token takes a character at least, so reading ends after as many
tokens as there are characters, if not before. -/
theorem length_tokenize_le (script : Text) : (tokenize script).length ≤ script.length := by
  have hpieces (ts : List Token) (h : ∀ t ∈ ts, t.text ≠ []) :
      ts.length ≤ (ts.map Token.text).flatten.length := by
    induction ts with
    | nil => exact Nat.le_refl 0
    | cons t ts ih =>
      have hhead := List.length_pos_iff.mpr (h t List.mem_cons_self)
      have htail := ih fun u hu => h u (List.mem_cons_of_mem t hu)
      rw [List.map_cons, List.flatten_cons, List.length_append, List.length_cons]
      omega
  have h := hpieces (tokenize script) fun t ht => (liesIn_of_mem_tokenize ht).1
  rwa [flatten_text_tokenize] at h

/-- The tokens of a script are **the script cut into pieces**: none is empty,
their spans lie end to end from its start to its end, at boundaries of
characters, and hold the texts of the tokens. -/
theorem tokens_tile_script (script : Text) :
    (∀ t ∈ tokenize script, t.text ≠ []) ∧
    Tiles script.byteLength 0 ((tokenize script).map Token.span) ∧
    (tokenize script = [] ↔ script = []) ∧
    (∀ t ∈ tokenize script, script.IsBoundary t.span.start ∧ script.IsBoundary t.span.stop ∧
      script.slice? t.span.start t.span.stop = some t.text) ∧
    ((tokenize script).map Token.text).flatten = script ∧
    (tokenize script).length ≤ script.length := by
  have htiles := tiles_tokenizeFrom 0 true none script
  rw [Nat.zero_add] at htiles
  refine ⟨fun t ht => (liesIn_of_mem_tokenize ht).1, htiles, tokenize_eq_nil_iff, fun t ht => ?_,
    flatten_text_tokenize script, length_tokenize_le script⟩
  have hlies := liesIn_of_mem_tokenize ht
  exact ⟨hlies.isBoundary_start, hlies.isBoundary_stop, hlies.slice?_eq⟩

/-- A regular expression with a character of two bytes, a stray backslash, and
a string that ends before a backslash with nothing to take along. -/
def strayBackslashes : Text := ['=', '/', 'ä', '/', 'g', '\\', '"', 'a', '\\']

/-- Five tokens on ten bytes. -/
theorem tokens_tile_script_strayBackslashes :
    (tokenize strayBackslashes).map (fun t => (t.kind, t.span)) =
      [(.punct, ⟨0, 1⟩), (.regex, ⟨1, 6⟩), (.unknown, ⟨6, 7⟩), (.unterminatedString, ⟨7, 9⟩),
        (.unknown, ⟨9, 10⟩)] ∧
    (∀ t ∈ tokenize strayBackslashes, t.text ≠ []) ∧
    Tiles 10 0 ((tokenize strayBackslashes).map Token.span) ∧
    ((tokenize strayBackslashes).map Token.text).flatten = strayBackslashes := by
  obtain ⟨hpieces, htiles, -, -, hflatten, -⟩ := tokens_tile_script strayBackslashes
  exact ⟨by decide +kernel, hpieces, htiles, hflatten⟩

end FenceFacts
