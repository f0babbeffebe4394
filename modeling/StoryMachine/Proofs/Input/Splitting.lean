import Mathlib.Data.List.Sort
import StoryMachine.Proofs.Input.Buffer

/-!
# The one way to split a line

A list of words is a splitting of a line (`Splits`) when the words stand in the line in
order and apart from each other, all characters between them are spaces, and each of
them is a separator or a run of other characters that cannot be made longer.

There is one splitting of a line, and it is what `split` finds (`splits_iff`).  That
there is no other follows from the words alone.  Two words that share a character of the
line are the same (`IsWord.eq_of_covers`), so a splitting has all the words that can be
found in the line, and its order is fixed.  That `split` finds one follows its recursion.
What it has found from a place on is laid end to end from there, with spaces between
(`Tiles`).
-/

namespace StoryMachine.Token

variable {separators chars : List Char} {token other : Token} {tokens : List Token}

/-! ## Splittings -/

/-- The place after the last character of a word. -/
def stop (token : Token) : Nat := token.position + token.text.length

theorem stop_singleton (c : Char) (position : Nat) :
    stop { text := String.singleton c, position } = position + 1 := by
  simp [stop]

/-- A character of a word stands at a place of the line. -/
def Covers (token : Token) (i : Nat) : Prop := token.position ≤ i ∧ i < token.stop

/-- There is a space or a separator at a place of a line, or the line has ended. -/
def Breaks (separators chars : List Char) (i : Nat) : Prop :=
  ∀ c, chars[i]? = some c → c = ' ' ∨ c ∈ separators

/-- A word is one separator. -/
def IsSeparator (separators : List Char) (token : Token) : Prop :=
  ∃ c ∈ separators, token.text = String.singleton c

/-- A word is a run of characters that are not separators, and goes as far as it can in
both directions. -/
structure IsRun (separators chars : List Char) (token : Token) : Prop where
  plain : ∀ c ∈ token.text.toList, c ∉ separators
  opens : token.position = 0 ∨ Breaks separators chars (token.position - 1)
  closes : Breaks separators chars token.stop

/-- A list of words splits a line. -/
structure Splits (separators chars : List Char) (tokens : List Token) : Prop where
  /-- The words come in the order of their positions. -/
  ordered : tokens.Pairwise fun first second => first.position < second.position
  /-- Each has characters and stands in the line at its position. -/
  within : ∀ token ∈ tokens, token.Within chars
  /-- No two of them overlap. -/
  apart : tokens.Pairwise fun first second => ∀ i, first.Covers i → ¬second.Covers i
  /-- What is between them is spaces. -/
  between : ∀ i c, chars[i]? = some c → (∀ token ∈ tokens, ¬token.Covers i) → c = ' '
  /-- None of them has a space in it. -/
  spaceless : ∀ token ∈ tokens, ' ' ∉ token.text.toList
  /-- Each is a separator or a run that cannot be made longer. -/
  kind : ∀ token ∈ tokens, token.IsSeparator separators ∨ token.IsRun separators chars
  /-- Each separator but a space is a word of its own. -/
  alone : ∀ i c, chars[i]? = some c → c ∈ separators → c ≠ ' ' →
    { text := String.singleton c, position := i } ∈ tokens

/-! ## Words that can be found in a line -/

/-- A word that a splitting of a line may have. -/
structure IsWord (separators chars : List Char) (token : Token) : Prop where
  within : token.Within chars
  spaceless : ' ' ∉ token.text.toList
  kind : token.IsSeparator separators ∨ token.IsRun separators chars

theorem Within.position_lt_stop (within : token.Within chars) : token.position < token.stop := by
  have nonempty := List.length_pos_iff.2 within.1
  rw [String.length_toList] at nonempty
  exact Nat.lt_add_of_pos_right nonempty

theorem Within.covers_position (within : token.Within chars) : token.Covers token.position :=
  ⟨Nat.le_refl _, within.position_lt_stop⟩

/-- The characters of the line at the places that a word covers are its own. -/
theorem Within.exists_mem (within : token.Within chars) {i : Nat} (covers : token.Covers i) :
    ∃ c ∈ token.text.toList, chars[i]? = some c := by
  obtain ⟨first, last⟩ := covers
  have h : i - token.position < token.text.toList.length := by
    rw [String.length_toList]
    exact Nat.sub_lt_left_of_lt_add first last
  have found := within.getElem h
  rw [Nat.add_sub_cancel' first] at found
  exact ⟨_, List.getElem_mem h, found⟩

/-- A word is told by where it starts and where it stops. -/
theorem Within.eq (left : token.Within chars) (right : other.Within chars)
    (position : token.position = other.position) (stop : token.stop = other.stop) :
    token = other := by
  obtain ⟨-, before, after, whole, length⟩ := left
  obtain ⟨-, before', after', whole', length'⟩ := right
  have parts : before ++ (token.text.toList ++ after) =
      before' ++ (other.text.toList ++ after') := by
    rw [← List.append_assoc, ← List.append_assoc, ← whole, ← whole']
  have rest := List.append_inj_right parts (by omega)
  have text := List.append_inj_left rest (by
    rw [String.length_toList, String.length_toList]
    simp only [Token.stop] at stop
    omega)
  cases token
  cases other
  simp only [Token.mk.injEq]
  exact ⟨String.toList_inj.1 text, position⟩

theorem IsSeparator.stop_eq (separator : token.IsSeparator separators) :
    token.stop = token.position + 1 := by
  obtain ⟨c, -, text⟩ := separator
  cases token
  subst text
  exact stop_singleton c _

theorem IsSeparator.mem {c : Char} (separator : token.IsSeparator separators)
    (member : c ∈ token.text.toList) : c ∈ separators := by
  obtain ⟨s, known, text⟩ := separator
  rw [text, String.toList_singleton, List.mem_singleton] at member
  exact member ▸ known

namespace IsWord

/-- A run covers no place at which it would have to end. -/
theorem not_breaks (word : IsWord separators chars token) (run : token.IsRun separators chars)
    {i : Nat} (covers : token.Covers i) : ¬Breaks separators chars i := by
  intro breaks
  obtain ⟨c, member, found⟩ := word.within.exists_mem covers
  rcases breaks c found with rfl | separator
  · exact word.spaceless member
  · exact run.plain c member separator

/-- A run starts no earlier than another that shares a place with it. -/
theorem position_le (word : IsWord separators chars token) (run : token.IsRun separators chars)
    (otherRun : other.IsRun separators chars) {i : Nat} (covers : token.Covers i)
    (otherCovers : other.Covers i) : other.position ≤ token.position := by
  refine Nat.not_lt.1 fun earlier => ?_
  have breaks := otherRun.opens.resolve_left (by omega)
  refine word.not_breaks run ⟨Nat.le_sub_one_of_lt earlier, ?_⟩ breaks
  have := covers.2
  have := otherCovers.1
  omega

/-- A run stops no later than another that shares a place with it. -/
theorem stop_le (word : IsWord separators chars token) (run : token.IsRun separators chars)
    (otherRun : other.IsRun separators chars) {i : Nat} (covers : token.Covers i)
    (otherCovers : other.Covers i) : token.stop ≤ other.stop := by
  refine Nat.not_lt.1 fun later => ?_
  refine word.not_breaks run ⟨?_, later⟩ otherRun.closes
  have := covers.1
  have := otherCovers.2
  omega

/-- A separator and a run share no place. -/
theorem not_run_of_separator (word : IsWord separators chars token)
    (separator : token.IsSeparator separators) (otherWord : IsWord separators chars other)
    {i : Nat} (covers : token.Covers i) (otherCovers : other.Covers i) :
    ¬other.IsRun separators chars := by
  intro run
  obtain ⟨c, member, found⟩ := word.within.exists_mem covers
  refine otherWord.not_breaks run otherCovers ?_
  intro c' found'
  obtain rfl : c = c' := Option.some.inj (found.symm.trans found')
  exact .inr (separator.mem member)

/-- Two words that share a place of the line are the same. -/
theorem eq_of_covers (word : IsWord separators chars token)
    (otherWord : IsWord separators chars other) {i : Nat} (covers : token.Covers i)
    (otherCovers : other.Covers i) : token = other := by
  rcases word.kind with separator | run
  · have otherSeparator := otherWord.kind.resolve_right
      (word.not_run_of_separator separator otherWord covers otherCovers)
    have stop := separator.stop_eq
    have stop' := otherSeparator.stop_eq
    obtain ⟨first, last⟩ := covers
    obtain ⟨first', last'⟩ := otherCovers
    exact word.within.eq otherWord.within (by omega) (by omega)
  · have otherRun := otherWord.kind.resolve_left fun otherSeparator =>
      otherWord.not_run_of_separator otherSeparator word otherCovers covers run
    refine word.within.eq otherWord.within ?_ ?_
    · exact Nat.le_antisymm (otherWord.position_le otherRun run otherCovers covers)
        (word.position_le run otherRun covers otherCovers)
    · exact Nat.le_antisymm (word.stop_le run otherRun covers otherCovers)
        (otherWord.stop_le otherRun run otherCovers covers)

/-- A separator of the line is a word, if it is not a space. -/
theorem of_separator {i : Nat} {c : Char} (found : chars[i]? = some c)
    (separator : c ∈ separators) (visible : c ≠ ' ') :
    IsWord separators chars { text := String.singleton c, position := i } := by
  obtain ⟨h, rfl⟩ := List.getElem?_eq_some_iff.1 found
  refine ⟨⟨by simp, chars.take i, chars.drop (i + 1), ?_, ?_⟩, ?_, .inl ⟨_, separator, rfl⟩⟩
  · simp
  · rw [List.length_take]
    exact Nat.min_eq_left (Nat.le_of_lt h)
  · simpa using Ne.symm visible

end IsWord

/-! ## No two splittings -/

namespace Splits

theorem isWord (splits : Splits separators chars tokens) (member : token ∈ tokens) :
    IsWord separators chars token :=
  ⟨splits.within token member, splits.spaceless token member, splits.kind token member⟩

/-- A splitting has every word that can be found in the line. -/
theorem mem_iff (splits : Splits separators chars tokens) :
    token ∈ tokens ↔ IsWord separators chars token := by
  constructor
  · exact splits.isWord
  · intro word
    have covers := word.within.covers_position
    obtain ⟨c, member, found⟩ := word.within.exists_mem covers
    have shared : ∃ other ∈ tokens, other.Covers token.position := by
      by_contra none
      have space := splits.between _ c found fun other known covered =>
        none ⟨other, known, covered⟩
      exact word.spaceless (space ▸ member)
    obtain ⟨other, known, covered⟩ := shared
    exact word.eq_of_covers (splits.isWord known) covers covered ▸ known

/-- A line has at most one splitting. -/
theorem unique {others : List Token} (splits : Splits separators chars tokens)
    (splits' : Splits separators chars others) : tokens = others := by
  have members : ∀ token, token ∈ tokens ↔ token ∈ others :=
    fun token => splits.mem_iff.trans splits'.mem_iff.symm
  have : Std.Irrefl fun first second : Token => first.position < second.position :=
    ⟨fun _ => Nat.lt_irrefl _⟩
  have : Std.Antisymm fun first second : Token => first.position < second.position :=
    ⟨fun _ _ less greater => absurd less (Nat.lt_asymm greater)⟩
  exact splits.ordered.eq_of_mem_iff splits'.ordered members

end Splits

/-! ## Words laid end to end -/

/-- A line is laid out from a place on: words, spaces between them, and nothing else. -/
inductive Tiles (separators chars : List Char) : Nat → List Token → Prop where
  | done : Tiles separators chars chars.length []
  | space {start : Nat} {tokens : List Token} : chars[start]? = some ' ' →
      Tiles separators chars (start + 1) tokens → Tiles separators chars start tokens
  | word {token : Token} {tokens : List Token} : IsWord separators chars token →
      Tiles separators chars token.stop tokens →
      Tiles separators chars token.position (token :: tokens)

namespace Tiles

variable {start : Nat}

theorem isWord (tiles : Tiles separators chars start tokens) (member : token ∈ tokens) :
    IsWord separators chars token := by
  induction tiles with
  | done => cases member
  | space _ _ ih => exact ih member
  | word first _ ih =>
      rcases List.mem_cons.1 member with rfl | member
      · exact first
      · exact ih member

theorem le_position (tiles : Tiles separators chars start tokens) (member : token ∈ tokens) :
    start ≤ token.position := by
  induction tiles with
  | done => cases member
  | space _ _ ih => exact Nat.le_of_succ_le (ih member)
  | word first _ ih =>
      rcases List.mem_cons.1 member with rfl | member
      · exact Nat.le_refl _
      · exact Nat.le_trans (Nat.le_of_lt first.within.position_lt_stop) (ih member)

theorem pairwise (tiles : Tiles separators chars start tokens) :
    tokens.Pairwise fun first second => first.stop ≤ second.position := by
  induction tiles with
  | done => exact .nil
  | space _ _ ih => exact ih
  | word _ rest ih => exact .cons (fun _ member => rest.le_position member) ih

/-- Every character from the place on that is not a space is in a word. -/
theorem exists_covers (tiles : Tiles separators chars start tokens) {i : Nat} {c : Char}
    (later : start ≤ i) (found : chars[i]? = some c) (visible : c ≠ ' ') :
    ∃ token ∈ tokens, token.Covers i := by
  induction tiles with
  | done =>
      have inside := (List.getElem?_eq_some_iff.1 found).1
      exact absurd later (Nat.not_le.2 inside)
  | @space start _ isSpace _ ih =>
      have different : start ≠ i := by
        rintro rfl
        exact visible (Option.some.inj (found.symm.trans isSpace))
      exact ih (Nat.lt_of_le_of_ne later different)
  | @word first _ _ _ ih =>
      rcases Nat.lt_or_ge i first.stop with before | after
      · exact ⟨first, .head _, later, before⟩
      · obtain ⟨token, member, covers⟩ := ih after
        exact ⟨token, .tail _ member, covers⟩

/-- What is laid out from the start of a line splits it. -/
theorem splits (tiles : Tiles separators chars 0 tokens) : Splits separators chars tokens where
  ordered := by
    refine tiles.pairwise.imp_of_mem ?_
    intro first second member _ apart
    exact Nat.lt_of_lt_of_le (tiles.isWord member).within.position_lt_stop apart
  within token member := (tiles.isWord member).within
  apart := tiles.pairwise.imp fun apart i covers otherCovers =>
    absurd (Nat.lt_of_lt_of_le covers.2 apart) (Nat.not_lt.2 otherCovers.1)
  between := by
    intro i c found uncovered
    by_contra visible
    obtain ⟨token, member, covers⟩ := tiles.exists_covers (Nat.zero_le i) found visible
    exact uncovered token member covers
  spaceless token member := (tiles.isWord member).spaceless
  kind token member := (tiles.isWord member).kind
  alone := by
    intro i c found separator visible
    obtain ⟨token, member, covers⟩ := tiles.exists_covers (Nat.zero_le i) found visible
    have own := IsWord.of_separator found separator visible
    exact (tiles.isWord member).eq_of_covers own covers own.within.covers_position ▸ member

end Tiles

/-! ## What the scanner finds -/

/-- A line that is being split: `before` is done with, `word` has the characters since the
last space or separator, and `rest` is still to come. -/
structure Scanning (separators chars before word rest : List Char) : Prop where
  whole : chars = before ++ word ++ rest
  plain : ∀ c ∈ word, c ≠ ' ' ∧ c ∉ separators
  opens : before.length = 0 ∨ Breaks separators chars (before.length - 1)

namespace Scanning

variable {before word rest : List Char} {c : Char}

theorem start : Scanning separators chars [] [] chars where
  whole := rfl
  plain _ member := nomatch member
  opens := .inl rfl

theorem getElem (scanning : Scanning separators chars before word (c :: rest)) :
    chars[before.length + word.length]? = some c := by
  rw [scanning.whole, ← List.length_append, List.getElem?_append_right (Nat.le_refl _),
    Nat.sub_self]
  rfl

/-- A space or a separator ends the word. -/
theorem pass (scanning : Scanning separators chars before word (c :: rest))
    (breaks : c = ' ' ∨ c ∈ separators) :
    Scanning separators chars (before ++ word ++ [c]) [] rest where
  whole := by
    rw [scanning.whole]
    simp
  plain _ member := nomatch member
  opens := by
    refine .inr fun c' found => ?_
    have last : (before ++ word ++ [c]).length - 1 = before.length + word.length := by simp
    rw [last, scanning.getElem] at found
    exact Option.some.inj found ▸ breaks

/-- Any other character makes the word longer. -/
theorem take (scanning : Scanning separators chars before word (c :: rest)) (visible : c ≠ ' ')
    (plain : c ∉ separators) : Scanning separators chars before (word ++ [c]) rest where
  whole := by
    rw [scanning.whole]
    simp
  plain := by
    intro c' member
    rcases List.mem_append.1 member with member | member
    · exact scanning.plain c' member
    · obtain rfl := List.mem_singleton.1 member
      exact ⟨visible, plain⟩
  opens := scanning.opens

/-- The word that ends here comes before all words that follow. -/
theorem pending (scanning : Scanning separators chars before word rest)
    (closes : Breaks separators chars (before.length + word.length))
    (tiles : Tiles separators chars (before.length + word.length) tokens) :
    Tiles separators chars before.length
      (pending (before.length + word.length) word ++ tokens) := by
  simp only [Token.pending]
  split
  next empty =>
    rw [List.isEmpty_iff] at empty
    subst empty
    exact tiles
  next nonempty =>
    rw [List.isEmpty_iff] at nonempty
    let token : Token := { text := String.ofList word, position := before.length }
    have stop : token.stop = before.length + word.length := by simp [token, Token.stop]
    have isWord : IsWord separators chars token := by
      refine ⟨⟨?_, before, rest, ?_, rfl⟩, ?_, .inr ⟨?_, scanning.opens, stop ▸ closes⟩⟩
      · simpa [token] using nonempty
      · simpa [token] using scanning.whole
      · intro member
        exact (scanning.plain ' ' (by simpa [token] using member)).1 rfl
      · intro c member
        exact (scanning.plain c (by simpa [token] using member)).2
    rw [Nat.add_sub_cancel]
    exact .word isWord (stop ▸ tiles)

end Scanning

/-- From every state of the scanner on, the words it finds are laid end to end. -/
theorem splitFrom_tiles : ∀ {rest before word : List Char},
    Scanning separators chars before word rest →
      Tiles separators chars before.length
        (splitFrom separators (before.length + word.length) word rest)
  | [], before, word, scanning => by
      have length : before.length + word.length = chars.length := by simp [scanning.whole]
      have closes : Breaks separators chars (before.length + word.length) := by
        intro c found
        rw [length, List.getElem?_length] at found
        cases found
      have ended : Tiles separators chars (before.length + word.length) [] := length ▸ .done
      have tiles := scanning.pending closes ended
      rwa [List.append_nil] at tiles
  | c :: rest, before, word, scanning => by
      have found := scanning.getElem
      have moved : (before ++ word ++ [c]).length = before.length + word.length + 1 := by
        simp [Nat.add_assoc]
      have closes (breaks : c = ' ' ∨ c ∈ separators) :
          Breaks separators chars (before.length + word.length) :=
        fun c' found' => Option.some.inj (found.symm.trans found') ▸ breaks
      simp only [splitFrom]
      split
      next space =>
        have rest := splitFrom_tiles (scanning.pass (.inl space))
        rw [moved] at rest
        exact scanning.pending (closes (.inl space)) (.space (space ▸ found) rest)
      next visible =>
        split
        next separator =>
          have separator : c ∈ separators := by simpa using separator
          have rest := splitFrom_tiles (scanning.pass (.inr separator))
          have own := IsWord.of_separator found separator visible
          refine scanning.pending (closes (.inr separator)) (.word own ?_)
          rw [stop_singleton, ← moved]
          exact rest
        next plain =>
          have longer := splitFrom_tiles (scanning.take visible (by simpa using plain))
          rwa [List.length_append] at longer

/-- A list of words splits a line exactly when it is the one that is found. -/
theorem splits_iff (separators : List Char) (line : String) (tokens : List Token) :
    Splits separators line.toList tokens ↔ tokens = split separators line := by
  have found : Splits separators line.toList (split separators line) :=
    (splitFrom_tiles Scanning.start).splits
  constructor
  · intro splits
    exact splits.unique found
  · rintro rfl
    exact found

end StoryMachine.Token
