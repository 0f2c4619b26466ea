import Mathlib.Data.List.TakeWhile
import PatchLint.Proofs.Text.Bytes
import PatchLint.Text.Words

/-!
# Words in their places

`Text.words` splits a line at what belongs to no word. The same words can be found without
splitting: a word starts at a cut which no identifier character stands before, and goes on as
long as there are such characters. `words_eq_filterMap` ties the two, so a line has a word
exactly where the word stands as a whole run.

A search for a word that reads on behind each find passes over some cuts. All of these are
inside of a run, so it passes over no word that stands on its own.
-/

namespace PatchLint.Text

variable {line word : Text} {cut : Cut}

/-! ## Words by splitting -/

/-- A character that belongs to no word parts the words around it. -/
theorem words_append_cons {c : Char} (other : isWordChar c = false) (front back : Text) :
    words (front ++ c :: back) = front.words ++ back.words := by
  rw [words, words, words, List.splitOnP_append_cons front back (by simp [other]),
    List.filter_append]

@[simp] private theorem words_nil : words [] = [] := by
  simp [words]

/-- A character that belongs to no word is left out in front. -/
theorem words_cons_of_not {c : Char} (other : isWordChar c = false) (rest : Text) :
    words (c :: rest) = rest.words := by
  simpa using words_append_cons other [] rest

private theorem words_of_forall (notEmpty : word ≠ []) (isWord : ∀ c ∈ word, isWordChar c = true) :
    words word = [word] := by
  rw [words, List.splitOnP_eq_singleton fun c member => by simp [isWord c member]]
  simp [notEmpty]

/-- A line that starts with a word has it as its first one. -/
theorem words_cons_of_isWordChar {c : Char} (isChar : isWordChar c = true) (rest : Text) :
    words (c :: rest) =
      (c :: rest.takeWhile isWordChar) :: words (rest.dropWhile isWordChar) := by
  have first : words (c :: rest.takeWhile isWordChar) = [c :: rest.takeWhile isWordChar] := by
    apply words_of_forall (List.cons_ne_nil _ _)
    rw [List.forall_mem_cons]
    exact ⟨isChar, fun d member => List.mem_takeWhile_imp member⟩
  have split : c :: rest = (c :: rest.takeWhile isWordChar) ++ rest.dropWhile isWordChar := by
    rw [List.cons_append, List.takeWhile_append_dropWhile]
  cases behind : rest.dropWhile isWordChar with
  | nil =>
      rw [behind, List.append_nil] at split
      rw [split, first, words_nil]
  | cons d back =>
      have other : isWordChar d = false := by
        have fails := head?_dropWhile_any isWordChar rest
        rwa [behind] at fails
      rw [behind] at split
      rw [split, words_append_cons other, first, words_cons_of_not other, List.singleton_append]

/-! ## Words by their places -/

/-- A word in its place: a run of identifier characters with none before it and none behind
it. -/
structure IsRun (before word after : Text) : Prop where
  notEmpty : word ≠ []
  isWord : ∀ c ∈ word, isWordChar c = true
  startsWord : before.getLast?.any isWordChar = false
  endsWord : after.head?.any isWordChar = false

/-- The word that starts at a cut. -/
def Cut.word? (cut : Cut) : Option Text :=
  if cut.startsWord && cut.after.head?.any isWordChar then
    some (cut.after.takeWhile isWordChar)
  else none

/-- A word starts at a cut exactly if it stands there as a whole run. -/
theorem Cut.word?_eq_some_iff : cut.word? = some word ↔
    ∃ rest, cut.after = word ++ rest ∧ IsRun cut.before.reverse word rest := by
  rw [Cut.word?, Option.ite_none_right_eq_some, Bool.and_eq_true, Option.some.injEq,
    Cut.startsWord, Bool.not_eq_true', ← List.getLast?_reverse]
  constructor
  · rintro ⟨⟨startsWord, isChar⟩, rfl⟩
    refine ⟨cut.after.dropWhile isWordChar, List.takeWhile_append_dropWhile.symm, ?_⟩
    refine ⟨?_, fun c member => List.mem_takeWhile_imp member, startsWord, ?_⟩
    · intro empty
      cases after : cut.after with
      | nil => simp [after] at isChar
      | cons c rest =>
          have first : isWordChar c = true := by simpa [after] using isChar
          simp [after, first] at empty
    · exact head?_dropWhile_any isWordChar cut.after
  · rintro ⟨rest, after, notEmpty, isWord, startsWord, endsWord⟩
    obtain ⟨c, more, rfl⟩ := List.exists_cons_of_ne_nil notEmpty
    refine ⟨⟨startsWord, ?_⟩, ?_⟩
    · rw [after]
      exact isWord c List.mem_cons_self
    · rw [after]
      exact takeWhile_append_of_stop isWord endsWord

/-- Behind an identifier character, the rest of its word is left out. -/
theorem filterMap_word?_cutsFrom (read rest : Text) : (cutsFrom read rest).filterMap Cut.word? =
    if read.head?.any isWordChar then words (rest.dropWhile isWordChar) else rest.words := by
  induction rest generalizing read with
  | nil => simp [cutsFrom, Cut.word?]
  | cons c rest ih =>
      rw [cutsFrom, List.filterMap_cons, ih]
      cases isChar : isWordChar c with
      | false => simp [Cut.word?, isChar, words_cons_of_not isChar]
      | true =>
          cases inWord : read.head?.any isWordChar with
          | true => simp [Cut.word?, Cut.startsWord, isChar, inWord]
          | false =>
              simp [Cut.word?, Cut.startsWord, isChar, inWord, words_cons_of_isWordChar isChar]

/-- Splitting a line finds the words that start at its cuts. -/
theorem words_eq_filterMap (line : Text) : line.words = line.cuts.filterMap Cut.word? := by
  simpa [cuts] using (filterMap_word?_cutsFrom [] line).symm

/-- A word that starts at a cut stands as a whole run, with what is before the cut before
it. -/
theorem exists_mem_cuts_iff {holds : Text → Prop} :
    (∃ cut ∈ line.cuts, cut.word? = some word ∧ holds cut.before.reverse) ↔
      ∃ before after, line = before ++ (word ++ after) ∧ IsRun before word after ∧
        holds before := by
  constructor
  · rintro ⟨cut, member, starts, held⟩
    obtain ⟨after, split, run⟩ := Cut.word?_eq_some_iff.mp starts
    refine ⟨cut.before.reverse, after, ?_, run, held⟩
    rw [← split, append_of_mem_cuts member]
  · rintro ⟨before, after, rfl, run, held⟩
    have member := mem_cuts_append before (word ++ after)
    rw [← before.reverse_reverse] at run held
    exact ⟨_, member, Cut.word?_eq_some_iff.mpr ⟨after, rfl, run⟩, held⟩

private theorem mem_words_iff : word ∈ line.words ↔
    ∃ before after, line = before ++ (word ++ after) ∧ IsRun before word after := by
  have places := @exists_mem_cuts_iff line word fun _ => True
  simpa [words_eq_filterMap, List.mem_filterMap] using places

/-- A line has a word exactly if the word stands somewhere in it as a whole run. -/
theorem hasWord_iff : line.hasWord word = true ↔
    ∃ before after, line = before ++ (word ++ after) ∧ IsRun before word after := by
  rw [hasWord, List.contains_iff_mem, mem_words_iff]

/-- A letter beyond ASCII is no part of a word, an underscore is one. -/
example : hasWord "éstaticé".toList "static".toList = true ∧
    hasWord "_static".toList "static".toList = false := by
  decide

/-! ## Searching on behind each find -/

/-- The cuts at which a search finds a pattern that reads on behind each find: `skip`
characters still belong to the last one. -/
def findsFrom (pattern : Text) : Nat → Text → Text → List Cut
  | _, _, [] => []
  | skip + 1, read, c :: rest => findsFrom pattern skip (c :: read) rest
  | 0, read, c :: rest =>
    if pattern.isPrefixOf (c :: rest) then
      ⟨read, c :: rest⟩ :: findsFrom pattern (pattern.length - 1) (c :: read) rest
    else findsFrom pattern 0 (c :: read) rest

/-- The cuts at which a pattern is found from left to right and without overlap. -/
def finds (pattern line : Text) : List Cut :=
  findsFrom pattern 0 [] line

section Selection

variable {α : Type} {select : Cut → Option α} {skip : Nat} {read : Text}

/-- While characters are skipped, an identifier character has been read last and more follow,
so no word starts there. -/
theorem filterMap_findsFrom (notEmpty : word ≠ []) (isWord : ∀ c ∈ word, isWordChar c = true)
    (selects : ∀ cut, cut.word? ≠ some word → select cut = none) (rest : Text)
    (inWord : 0 < skip → read.head?.any isWordChar = true)
    (followed : ∀ c ∈ rest.take skip, isWordChar c = true) :
    (findsFrom word skip read rest).filterMap select = (cutsFrom read rest).filterMap select := by
  induction rest generalizing skip read with
  | nil =>
      have nothing : select ⟨read, []⟩ = none := selects _ (by simp [Cut.word?])
      simp [findsFrom, cutsFrom, nothing]
  | cons c rest ih =>
      rw [cutsFrom]
      cases skip with
      | succ skip =>
          rw [List.take_succ_cons, List.forall_mem_cons] at followed
          have nothing : select ⟨read, c :: rest⟩ = none :=
            selects _ (by simp [Cut.word?, Cut.startsWord, inWord])
          rw [findsFrom, List.filterMap_cons_none nothing]
          exact ih (fun _ => followed.1) followed.2
      | zero =>
          rw [findsFrom]
          split
          next starts =>
            obtain ⟨first, more, rfl⟩ := List.exists_cons_of_ne_nil notEmpty
            obtain ⟨firstIsChar, moreIsWord⟩ := List.forall_mem_cons.mp isWord
            obtain ⟨behind, split⟩ := List.isPrefixOf_iff_prefix.mp starts
            rw [List.cons_append, List.cons.injEq] at split
            obtain ⟨rfl, rfl⟩ := split
            rw [List.filterMap_cons, List.filterMap_cons, ih]
            · exact fun _ => firstIsChar
            · simpa using moreIsWord
          next other =>
            have nothing : select ⟨read, c :: rest⟩ = none := by
              refine selects _ fun starts => other ?_
              obtain ⟨behind, split, _⟩ := Cut.word?_eq_some_iff.mp starts
              exact List.isPrefixOf_iff_prefix.mpr ⟨behind, split.symm⟩
            rw [List.filterMap_cons_none nothing]
            exact ih (by simp) (by simp)

/-- What is selected only where a word stands on its own is found by a search that reads on
behind each find of its characters: what the search passes over lies inside of a run. -/
theorem filterMap_finds (notEmpty : word ≠ []) (isWord : ∀ c ∈ word, isWordChar c = true)
    (selects : ∀ cut, cut.word? ≠ some word → select cut = none) (line : Text) :
    (finds word line).filterMap select = line.cuts.filterMap select :=
  filterMap_findsFrom notEmpty isWord selects line (by simp) (by simp)

end Selection

end PatchLint.Text
