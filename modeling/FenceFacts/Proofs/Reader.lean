import FenceFacts.Proofs.Statements

/-!
# FenceFacts — reading token by token

The reader goes through a script once and carries two things along: whether a
`/` that comes next opens a regular expression, and the token right before it.
Both are known from the tokens that have been read.  The token before is the
last of them.  What a `/` means was settled by the last one that is neither
trivia nor a comment, together with the token right before that one, and
nothing that was read earlier can be seen any more.

## Results

* `exists_tokens_behind`     — reading goes on behind the first tokens.
* `exists_nextLexeme_behind` — a token is the lexeme that is read there.
* `regexAllowed_behind`      — what a `/` means behind the first tokens.
-/

namespace FenceFacts

/-- What the reader carries from token to token. -/
structure Reader where
  regexAllowed : Bool := true
  previous : Option Token := none
  deriving DecidableEq, Repr

namespace Reader

/-- The reader behind one more token. -/
def step (r : Reader) (t : Token) : Reader where
  regexAllowed :=
    if t.isSignificant then opensRegexAfter t.kind t.text r.previous else r.regexAllowed
  previous := some t

/-- The reader behind the first tokens of a script. -/
def behind (tokens : List Token) : Reader := tokens.foldl step {}

/-- The tokens that are read from here on, where byte `offset` of the script
is reached and `rest` is left. -/
def tokens (r : Reader) (offset : Nat) (rest : Text) : List Token :=
  tokenizeFrom offset r.regexAllowed r.previous rest

variable {r : Reader} {offset : Nat} {rest : Text} {before gap : List Token} {t : Token}

-- ---------------------------------------------------------------------------
-- Reading on
-- ---------------------------------------------------------------------------

theorem tokens_nil (r : Reader) (offset : Nat) : r.tokens offset [] = [] := by
  rw [tokens, tokenizeFrom]

/-- **One token** is read. -/
theorem tokens_cons (r : Reader) (offset : Nat) (c : Char) (cs : Text) :
    ∃ t : Token, t.kind = (nextLexeme r.regexAllowed c cs).kind ∧
      t.text = (nextLexeme r.regexAllowed c cs).text ∧
      r.tokens offset (c :: cs) =
        t :: (r.step t).tokens (offset + t.text.byteLength)
          (nextLexeme r.regexAllowed c cs).rest := by
  rw [tokens, tokenizeFrom]
  exact ⟨_, rfl, rfl, rfl⟩

/-- Reading **goes on** from what the reader carries behind the first tokens. -/
theorem exists_tokens_behind {ts : List Token} (h : r.tokens offset rest = before ++ ts) :
    ∃ rest', rest = (before.map Token.text).flatten ++ rest' ∧
      ts = (before.foldl step r).tokens
        (offset + Text.byteLength (before.map Token.text).flatten) rest' := by
  induction before generalizing r offset rest with
  | nil => exact ⟨rest, rfl, h.symm⟩
  | cons u before ih =>
    cases rest with
    | nil =>
      rw [tokens_nil] at h
      cases h
    | cons c cs =>
      obtain ⟨t, -, htext, htokens⟩ := tokens_cons r offset c cs
      rw [htokens, List.cons_append] at h
      obtain ⟨rfl, hlater⟩ := List.cons.inj h
      obtain ⟨rest', hrest, hts⟩ := ih hlater
      refine ⟨rest', ?_, ?_⟩
      · rw [List.map_cons, List.flatten_cons, List.append_assoc, ← hrest, htext]
        exact (nextLexeme_text_append_rest r.regexAllowed c cs).symm
      · rw [List.map_cons, List.flatten_cons, Text.byteLength_append, ← Nat.add_assoc]
        exact hts

/-- A token is the lexeme that the reader takes behind the tokens before it. -/
theorem exists_nextLexeme_behind {script : Text} {after : List Token}
    (h : tokenize script = before ++ t :: after) :
    ∃ c cs, script = (before.map Token.text).flatten ++ c :: cs ∧
      t.kind = (nextLexeme (behind before).regexAllowed c cs).kind ∧
      t.text = (nextLexeme (behind before).regexAllowed c cs).text := by
  have h : tokens {} 0 script = before ++ t :: after := h
  obtain ⟨rest, hscript, hrest⟩ := exists_tokens_behind h
  cases rest with
  | nil =>
    rw [tokens_nil] at hrest
    cases hrest
  | cons c cs =>
    obtain ⟨u, hkind, htext, htokens⟩ := tokens_cons (behind before)
      (0 + Text.byteLength (before.map Token.text).flatten) c cs
    rw [behind] at htokens
    rw [htokens] at hrest
    obtain ⟨rfl, -⟩ := List.cons.inj hrest
    exact ⟨c, cs, hscript, hkind, htext⟩

-- ---------------------------------------------------------------------------
-- What is carried along
-- ---------------------------------------------------------------------------

theorem behind_concat (before : List Token) (t : Token) :
    behind (before ++ [t]) = (behind before).step t := by
  rw [behind, List.foldl_concat]
  rfl

theorem previous_behind (before : List Token) : (behind before).previous = before.getLast? := by
  rcases List.eq_nil_or_concat' before with rfl | ⟨before, t, rfl⟩
  · rfl
  · rw [behind_concat, List.getLast?_concat]
    rfl

/-- Trivia and comments change nothing. -/
theorem regexAllowed_foldl (hgap : significant gap = []) (r : Reader) :
    (gap.foldl step r).regexAllowed = r.regexAllowed := by
  induction gap generalizing r with
  | nil => rfl
  | cons u gap ih =>
    have hu : ¬ u.isSignificant = true := fun h => by
      rw [significant_cons_of_pos h] at hgap
      cases hgap
    rw [significant_cons_of_neg hu] at hgap
    rw [List.foldl_cons, ih hgap, step, if_neg hu]

/-- What a `/` means is settled by **the last significant token** and by the
token right before that one. -/
theorem regexAllowed_behind {earlier : List Token} (ht : t.isSignificant = true)
    (hgap : significant gap = []) :
    (behind (earlier ++ t :: gap)).regexAllowed =
      opensRegexAfter t.kind t.text earlier.getLast? := by
  rw [behind, List.foldl_append, List.foldl_cons, regexAllowed_foldl hgap, step, if_pos ht,
    ← previous_behind]
  rfl

end Reader

end FenceFacts
