import FenceFacts.Proofs.Block

/-!
# FenceFacts — pairing fences

What a scan yields can be said without a scanner.  Among the lines of a text
the first one that opens a script is paired with the first fence behind it,
whatever that fence is; the lines between the two are a script; and the
pairing goes on behind the second one.  `pairFences` is that recursion.  It
looks at the lines as they stand: at the backticks, at the letters right
behind them, and at the line feed in the end.

An opening line that is left over has no fence behind it, so nothing is
missed.

## Results

* `ofLine?_isSome_iff`    — a fence is a line that starts with three backticks.
* `openedTag?_eq_some_iff` — which lines open a script, and how.
* `blocks_eq_pairFences`  — a scan yields the scripts of the pairing.
* `exists_lines_of_unclosed` — the line that is left over.
* `scan_pairs_greedily`   — all of it, for the lines of a text.
-/

namespace FenceFacts

-- ---------------------------------------------------------------------------
-- Lines by what they start with
-- ---------------------------------------------------------------------------

def backticks : Text := ['\x60', '\x60', '\x60']

/-- The line starts with three backticks, whatever follows. -/
def isFenceLine (line : Text) : Bool := backticks.isPrefixOf line

/-- The text starts with the word, its letters in either case. -/
def Text.startsWithWord (word : String) (t : Text) : Bool :=
  (t.take word.toList.length).map Char.toLower == word.toList

/-- The tag that a text starts with. -/
def tagAtStart? (t : Text) : Option ScriptTag :=
  if t.startsWithWord "javascript" then some .javascript
  else if t.startsWithWord "js" then some .js
  else none

/-- The tag of a line that opens a script: the line ends with a line feed, and
the tag follows its backticks at once. -/
def openedTag? (line : Text) : Option ScriptTag :=
  if line.isTerminated && isFenceLine line then tagAtStart? (line.drop backticks.length) else none

/-- What is said of a script between two fences. -/
structure FencedScript where
  content : Text
  info : Text
  tag : ScriptTag
  deriving DecidableEq, Repr

/-- The scripts among the lines: from a line that opens one to the first fence
behind it, and on behind that fence.  Without a fence there are no more. -/
def pairFences : List Text → List FencedScript
  | [] => []
  | l :: ls =>
    match openedTag? l with
    | none => pairFences ls
    | some tag =>
      if ls.any isFenceLine then
        ⟨(ls.takeWhile (!isFenceLine ·)).flatten,
          Text.withoutTerminator (l.drop backticks.length), tag⟩ ::
          pairFences (ls.dropWhile (!isFenceLine ·)).tail
      else []
termination_by ls => ls.length
decreasing_by
  · exact Nat.lt_succ_self _
  · have hdrop := (List.dropWhile_sublist (p := (!isFenceLine ·)) (l := ls)).length_le
    rw [List.length_tail, List.length_cons]
    omega

def Block.script (b : Block) : FencedScript := ⟨b.content, b.info, b.tag⟩

-- ---------------------------------------------------------------------------
-- Fences
-- ---------------------------------------------------------------------------

theorem isFenceLine_iff {line : Text} :
    isFenceLine line = true ↔ ∃ rest, line = '\x60' :: '\x60' :: '\x60' :: rest := by
  rw [isFenceLine, List.isPrefixOf_iff_prefix]
  constructor
  · rintro ⟨rest, rfl⟩
    exact ⟨rest, rfl⟩
  · rintro ⟨rest, rfl⟩
    exact ⟨rest, rfl⟩

theorem isFenceLine_of_concat {m : Text} (h : isFenceLine (m ++ ['\n']) = true) :
    isFenceLine m = true := by
  obtain ⟨rest, hrest⟩ := isFenceLine_iff.mp h
  match m, hrest with
  | _ :: _ :: _ :: tail, hrest =>
    simp only [List.cons_append, List.cons.injEq] at hrest
    obtain ⟨rfl, rfl, rfl, -⟩ := hrest
    exact isFenceLine_iff.mpr ⟨tail, rfl⟩

theorem ofLine?_backticks (rest : Text) :
    Fence.ofLine? ('\x60' :: '\x60' :: '\x60' :: rest) =
      some ⟨Text.withoutTerminator rest, ScriptTag.ofInfo? (Text.withoutTerminator rest)⟩ := by
  rw [Fence.ofLine?]

/-- A fence is a line that **starts with three backticks**. -/
theorem ofLine?_isSome_iff {line : Text} :
    (Fence.ofLine? line).isSome = true ↔ isFenceLine line = true := by
  rw [isFenceLine_iff]
  constructor
  · intro h
    unfold Fence.ofLine? at h
    split at h
    · next rest => exact ⟨rest, rfl⟩
    · exact absurd h (by simp)
  · rintro ⟨rest, rfl⟩
    rw [ofLine?_backticks]
    rfl

theorem ofLine?_eq_none_iff {line : Text} :
    Fence.ofLine? line = none ↔ isFenceLine line = false := by
  rw [← Option.not_isSome_iff_eq_none, ofLine?_isSome_iff, Bool.not_eq_true]

-- ---------------------------------------------------------------------------
-- Tags
-- ---------------------------------------------------------------------------

theorem startsWithWord_iff {word : String} {t : Text} :
    t.startsWithWord word = true ↔ word.toList <+: t.map Char.toLower := by
  rw [Text.startsWithWord, beq_iff_eq, List.map_take, List.prefix_iff_eq_take]
  exact eq_comm

theorem opens_eq_startsWithWord (tag : ScriptTag) (t : Text) :
    tag.opens t = t.startsWithWord tag.toString := by
  rw [Bool.eq_iff_iff, ScriptTag.opens, List.isPrefixOf_iff_prefix, startsWithWord_iff]

theorem ofInfo?_eq_tagAtStart? (t : Text) : ScriptTag.ofInfo? t = tagAtStart? t := by
  unfold ScriptTag.ofInfo? ScriptTag.all tagAtStart?
  rw [List.find?_cons, List.find?_cons, List.find?_nil, opens_eq_startsWithWord,
    opens_eq_startsWithWord]
  show (match t.startsWithWord "javascript" with
    | true => some ScriptTag.javascript
    | false => match t.startsWithWord "js" with
      | true => some ScriptTag.js
      | false => none) = _
  cases t.startsWithWord "javascript" <;> cases t.startsWithWord "js" <;> rfl

/-- A word without line ends stands before the end of a line or nowhere. -/
theorem startsWithWord_withoutTerminator {word : String}
    (hword : word.toList.all (!Text.isLineBreak ·) = true) (t : Text) :
    t.withoutTerminator.startsWithWord word = t.startsWithWord word := by
  have hsplit : t.map Char.toLower =
      t.withoutTerminator.map Char.toLower ++ t.terminator.map Char.toLower := by
    rw [← List.map_append, Text.withoutTerminator_append_terminator]
  have hcut : t.withoutTerminator.map Char.toLower <+: t.map Char.toLower := by
    rw [hsplit]
    exact List.prefix_append _ _
  rw [Bool.eq_iff_iff, startsWithWord_iff, startsWithWord_iff]
  constructor
  · intro h
    exact h.trans hcut
  · intro h
    rcases List.prefix_or_prefix_of_prefix h hcut with hshort | ⟨x, hx⟩
    · exact hshort
    · -- what the word has beyond the cut would be line ends
      have hxs : x <+: t.terminator.map Char.toLower := by
        rw [hsplit, ← hx] at h
        exact (List.prefix_append_right_inj _).mp h
      have hnil : x = [] := by
        rw [List.eq_nil_iff_forall_not_mem]
        intro c hc
        obtain ⟨c', hc', hlower⟩ := List.mem_map.mp (hxs.subset hc)
        have hbreak : Text.isLineBreak c = true := by
          rcases Text.isLineBreak_iff.mp (Text.isLineBreak_of_mem_terminator hc') with rfl | rfl
          · rw [← hlower]
            decide
          · rw [← hlower]
            decide
        have hnot := List.all_eq_true.mp hword c (hx ▸ List.mem_append_right _ hc)
        rw [hbreak] at hnot
        exact absurd hnot (by decide)
      have heq : word.toList = t.withoutTerminator.map Char.toLower := by
        rw [← hx, hnil, List.append_nil]
      exact heq ▸ List.prefix_rfl

theorem tagAtStart?_withoutTerminator (t : Text) :
    tagAtStart? t.withoutTerminator = tagAtStart? t := by
  unfold tagAtStart?
  rw [startsWithWord_withoutTerminator (by decide), startsWithWord_withoutTerminator (by decide)]

/-- What a line that opens a script says, and that it is a line that opens a
block. -/
theorem openedTag?_eq_some_iff {line : Text} {tag : ScriptTag} :
    openedTag? line = some tag ↔ line.isTerminated = true ∧
      Fence.ofLine? line =
        some ⟨Text.withoutTerminator (line.drop backticks.length), some tag⟩ := by
  by_cases hfence : isFenceLine line = true
  · obtain ⟨rest, rfl⟩ := isFenceLine_iff.mp hfence
    have hdrop : List.drop backticks.length ('\x60' :: '\x60' :: '\x60' :: rest) = rest := rfl
    rw [ofLine?_backticks, hdrop, ofInfo?_eq_tagAtStart?, tagAtStart?_withoutTerminator]
    unfold openedTag?
    rw [hfence, hdrop, Bool.and_true]
    by_cases hterm : Text.isTerminated ('\x60' :: '\x60' :: '\x60' :: rest) = true
    · simp [hterm]
    · simp [hterm]
  · have hnone := ofLine?_eq_none_iff.mpr (Bool.not_eq_true _ ▸ hfence)
    simp [openedTag?, hfence, hnone]

theorem openedTag?_of_ofLine? {line info : Text} {tag : ScriptTag}
    (hterm : line.isTerminated = true) (h : Fence.ofLine? line = some ⟨info, some tag⟩) :
    openedTag? line = some tag := by
  refine openedTag?_eq_some_iff.mpr ⟨hterm, ?_⟩
  obtain ⟨rest, rfl⟩ := isFenceLine_iff.mp (ofLine?_isSome_iff.mp (by rw [h]; rfl))
  rw [ofLine?_backticks] at h ⊢
  obtain ⟨-, htag⟩ := Fence.mk.inj (Option.some.inj h)
  rw [htag]
  rfl

theorem exists_openedTag? {line : Text} (h : OpensBlock line) :
    ∃ tag, openedTag? line = some tag := by
  obtain ⟨hterm, info, tag, hopener⟩ := h
  exact ⟨tag, openedTag?_of_ofLine? hterm hopener⟩

theorem openedTag?_eq_none {line : Text} (h : ¬ OpensBlock line) : openedTag? line = none := by
  rw [Option.eq_none_iff_forall_ne_some]
  intro tag htag
  obtain ⟨hterm, hopener⟩ := openedTag?_eq_some_iff.mp htag
  exact h ⟨hterm, _, _, hopener⟩

-- ---------------------------------------------------------------------------
-- Steps of the pairing
-- ---------------------------------------------------------------------------

theorem pairFences_skip {l : Text} (h : openedTag? l = none) (ls : List Text) :
    pairFences (l :: ls) = pairFences ls := by
  rw [pairFences]
  simp only [h]

theorem pairFences_unclosed {opener : Text} {tag : ScriptTag} (h : openedTag? opener = some tag)
    {body : List Text} (hbody : ∀ l ∈ body, isFenceLine l = false) :
    pairFences (opener :: body) = [] := by
  have hany : body.any isFenceLine = false := by
    simpa using hbody
  rw [pairFences]
  simp only [h, hany, Bool.false_eq_true, if_false]

theorem pairFences_block {opener : Text} {tag : ScriptTag} (h : openedTag? opener = some tag)
    {body : List Text} (hbody : ∀ l ∈ body, isFenceLine l = false) {closer : Text}
    (hcloser : isFenceLine closer = true) (post : List Text) :
    pairFences (opener :: (body ++ closer :: post)) =
      ⟨body.flatten, Text.withoutTerminator (opener.drop backticks.length), tag⟩ ::
        pairFences post := by
  have hany : (body ++ closer :: post).any isFenceLine = true := by
    simp [hcloser]
  have hbefore : ∀ l ∈ body, (!isFenceLine l) = true := by
    simpa using hbody
  have htake : (body ++ closer :: post).takeWhile (!isFenceLine ·) = body := by
    rw [List.takeWhile_append_of_pos hbefore, List.takeWhile_cons_of_neg (by simp [hcloser]),
      List.append_nil]
  have hdrop : (body ++ closer :: post).dropWhile (!isFenceLine ·) = closer :: post := by
    rw [List.dropWhile_append_of_pos hbefore, List.dropWhile_cons_of_neg (by simp [hcloser])]
  rw [pairFences]
  simp only [h, hany, htake, hdrop, if_true, List.tail_cons]

-- ---------------------------------------------------------------------------
-- Scans
-- ---------------------------------------------------------------------------

theorem forall_isFenceLine_eq_false {body : List Text}
    (h : ∀ l ∈ body, Fence.ofLine? l = none) : ∀ l ∈ body, isFenceLine l = false := by
  intro l hl
  exact ofLine?_eq_none_iff.mp (h l hl)

/-- A scan yields **the scripts of the pairing**. -/
theorem blocks_eq_pairFences (start : Nat) (ls : List Text) :
    (scanLines none (spanLines start ls)).blocks.map Block.script = pairFences ls := by
  induction ls using scan_induction generalizing start with
  | nil =>
    rw [pairFences]
    rfl
  | skip l ls hopens ih =>
    rw [scanLines_none_cons hopens, ih, pairFences_skip (openedTag?_eq_none hopens)]
  | unclosed opener body hopens hbody =>
    obtain ⟨tag, htag⟩ := exists_openedTag? hopens
    obtain ⟨hterm, hopener⟩ := openedTag?_eq_some_iff.mp htag
    rw [scanLines_opener_unclosed hterm hopener hbody,
      pairFences_unclosed htag (forall_isFenceLine_eq_false hbody)]
    rfl
  | block opener body closer post hopens hbody hcloser ih =>
    obtain ⟨tag, htag⟩ := exists_openedTag? hopens
    obtain ⟨hterm, hopener⟩ := openedTag?_eq_some_iff.mp htag
    obtain ⟨f, hf⟩ := Option.isSome_iff_exists.mp hcloser
    rw [scanLines_opener hterm hopener hbody hf,
      pairFences_block htag (forall_isFenceLine_eq_false hbody) (ofLine?_isSome_iff.mp hcloser),
      ← ih]
    rfl

/-- The line that is left open at the end: no line behind it is a fence. -/
theorem exists_lines_of_unclosed {start : Nat} {ls : List Text} {left : Span}
    (h : (scanLines none (spanLines start ls)).unclosed? = some left) :
    ∃ before opener after, ls = before ++ opener :: after ∧
      left = ⟨start + Text.byteLength before.flatten,
        start + Text.byteLength before.flatten + opener.byteLength⟩ ∧
      (openedTag? opener).isSome = true ∧ ∀ l ∈ after, isFenceLine l = false := by
  induction ls using scan_induction generalizing start with
  | nil => exact absurd h (by simp [spanLines, scanLines])
  | skip l ls hopens ih =>
    rw [scanLines_none_cons hopens] at h
    obtain ⟨before, opener, after, rfl, rfl, hopener, hafter⟩ := ih h
    refine ⟨l :: before, opener, after, rfl, ?_, hopener, hafter⟩
    rw [List.flatten_cons, Text.byteLength_append, Nat.add_assoc start]
  | unclosed opener body hopens hbody =>
    obtain ⟨tag, htag⟩ := exists_openedTag? hopens
    obtain ⟨hterm, hopener⟩ := openedTag?_eq_some_iff.mp htag
    rw [scanLines_opener_unclosed hterm hopener hbody] at h
    obtain rfl := Option.some.inj h
    exact ⟨[], opener, body, rfl, rfl, by rw [htag]; rfl, forall_isFenceLine_eq_false hbody⟩
  | block opener body closer post hopens hbody hcloser ih =>
    obtain ⟨tag, htag⟩ := exists_openedTag? hopens
    obtain ⟨hterm, hopener⟩ := openedTag?_eq_some_iff.mp htag
    obtain ⟨f, hf⟩ := Option.isSome_iff_exists.mp hcloser
    rw [scanLines_opener hterm hopener hbody hf] at h
    obtain ⟨before, opener', after, rfl, rfl, hopener', hafter⟩ := ih h
    refine ⟨opener :: (body ++ closer :: before), opener', after, ?_, ?_, hopener', hafter⟩
    · simp only [List.cons_append, List.append_assoc]
    · simp only [Block.ofLines, List.flatten_cons, List.flatten_append, Text.byteLength_append,
        Span.mk.injEq]
      omega

/-- The lines of a text, each ended by its line feed except perhaps the last,
are **paired greedily**: a scan yields the scripts of the pairing, and behind
a fence that is left open there is none. -/
theorem scan_pairs_greedily (t : Text) :
    (t.lines.flatten = t ∧
      (∀ l ∈ t.lines, ∃ m, '\n' ∉ m ∧ (l = m ++ ['\n'] ∨ l = m ∧ m ≠ [])) ∧
      ∀ l ∈ t.lines.dropLast, l.isTerminated = true) ∧
    (scanBlocks t).blocks.map Block.script = pairFences t.lines ∧
    ∀ left, (scanBlocks t).unclosed? = some left →
      ∃ before opener after, t.lines = before ++ opener :: after ∧
        left = ⟨Text.byteLength before.flatten,
          Text.byteLength before.flatten + opener.byteLength⟩ ∧
        (openedTag? opener).isSome = true ∧ ∀ l ∈ after, isFenceLine l = false := by
  refine ⟨⟨Text.flatten_lines t, fun l hl => Text.exists_of_mem_lines hl,
    fun l hl => Text.isTerminated_of_mem_dropLast_lines hl⟩, blocks_eq_pairFences 0 t.lines,
    fun left hleft => ?_⟩
  have hlines := exists_lines_of_unclosed hleft
  simpa only [Nat.zero_add] using hlines

/-- A block that a tagged fence closes, and a fence that is left open. -/
def leftOpen : Text :=
  ['\x60', '\x60', '\x60', 'J', 's', '\r', '\n', 'x', '\n', '\x60', '\x60', '\x60', 'j', 's', '\n',
    '\x60', '\x60', '\x60', 'j', 's', '+', '\n', '\x60', '\x60']

theorem scan_pairs_greedily_leftOpen :
    (scanBlocks leftOpen).blocks.map Block.script = [⟨['x', '\n'], ['J', 's'], .js⟩] ∧
    (scanBlocks leftOpen).unclosed? = some ⟨15, 22⟩ ∧
    ∃ before opener after, leftOpen.lines = before ++ opener :: after ∧
      (⟨15, 22⟩ : Span) = ⟨Text.byteLength before.flatten,
        Text.byteLength before.flatten + opener.byteLength⟩ ∧
      (openedTag? opener).isSome = true ∧ ∀ l ∈ after, isFenceLine l = false := by
  have hleft : (scanBlocks leftOpen).unclosed? = some ⟨15, 22⟩ := by decide
  obtain ⟨-, hblocks, hunclosed⟩ := scan_pairs_greedily leftOpen
  refine ⟨?_, hleft, hunclosed _ hleft⟩
  rw [hblocks]
  decide +kernel

end FenceFacts
