import Mathlib.Data.List.Basic
import PatchLint.Glob.Exclude
import PatchLint.Proofs.Path.Parts
import PatchLint.Proofs.Text.Bytes
import PatchLint.Proofs.Text.Lines

/-!
# Exclude patterns without wildcards

A plain pattern is made of names with slashes between them. As a wildcard pattern it
stands for itself alone, but its characters are also looked for anywhere in the path, and
that search knows nothing of the pieces of a path. `covers_plain_iff` says what a plain
pattern leaves out: every path in which its names stand on consecutive pieces, where the
first name may have anything before it in its piece and the last one anything behind it.
-/

namespace PatchLint

/-! ## Patterns that stand for one text -/

namespace Glob

/-- The pattern of these characters and no others. -/
def literal (text : Text) : Glob :=
  inOrder (text.map fun c => .one (.single c))

private theorem contains_single (c d : Char) : (CharClass.single c).contains d = (c == d) := by
  rw [Bool.eq_iff_iff, beq_iff_eq]
  simp only [CharClass.single, CharClass.contains, List.any_cons, List.any_nil, Bool.or_false,
    Bool.bne_false, Bool.and_eq_true, decide_eq_true_eq]
  constructor
  · rintro ⟨notAbove, notBelow⟩
    exact Char.le_antisymm notAbove notBelow
  · rintro rfl
    exact ⟨Char.le_refl c, Char.le_refl c⟩

private theorem reach_literal_cons (text : Text) (c : Char) (rest : Text) (places : Places) :
    reach text (literal (c :: rest)) places =
      reach text (literal rest) (advance (.single c) text places) := by
  rw [literal, List.map_cons, inOrder, List.foldr_cons, reach, reach]
  rfl

/-- A pattern that starts behind the first character does not see it. -/
theorem reach_literal_behind (c : Char) (text pattern : Text) (places : Places) :
    reach (c :: text) (literal pattern) (false :: places) =
      false :: reach text (literal pattern) places := by
  induction pattern generalizing places with
  | nil => rfl
  | cons d pattern ih =>
      have step : advance (.single d) (c :: text) (false :: places) =
          false :: advance (.single d) text places := by
        simp [advance]
      rw [reach_literal_cons, step, ih, reach_literal_cons]

/-- From nowhere a pattern leads nowhere. -/
theorem not_mem_reach_literal {text : Text} {places : Places} (nowhere : true ∉ places)
    (pattern : Text) : true ∉ reach text (literal pattern) places := by
  induction pattern generalizing places with
  | nil => exact nowhere
  | cons c pattern ih =>
      rw [reach_literal_cons]
      apply ih
      intro reached
      rw [advance, List.mem_cons] at reached
      obtain ⟨place, _, stands⟩ := List.mem_iff_getElem.mp (reached.resolve_left (by simp))
      rw [List.getElem_zipWith, Bool.and_eq_true] at stands
      exact nowhere (List.mem_of_getElem stands.1)

/-- From the start, one character leads to the place behind it if it is the right one. -/
theorem advance_single_atStart (c d : Char) (text : Text) :
    advance (.single c) (d :: text) (atStart (d :: text)) =
      false :: (c == d) :: text.map fun _ => false := by
  have unreached : List.zipWith (fun c' place => place && (CharClass.single c).contains c') text
      (false :: text.map fun _ => false) = text.map fun _ => false := by
    induction text with
    | nil => rfl
    | cons e text ih => rw [List.map_cons, List.zipWith_cons_cons, ih, Bool.false_and]
  rw [advance, atStart, List.map_cons, List.zipWith_cons_cons, unreached, Bool.true_and,
    contains_single]

private theorem getLast?_false_cons {places : Places} :
    (false :: places).getLast? = some true ↔ places.getLast? = some true := by
  rw [List.getLast?_cons]
  cases places.getLast? <;> simp

/-- A literal pattern covers its own text and no other. -/
theorem covers_literal_iff {pattern text : Text} :
    (literal pattern).covers text = true ↔ text = pattern := by
  induction pattern generalizing text with
  | nil =>
      rw [covers, literal, List.map_nil, inOrder, List.foldr_nil, reach, atStart, beq_iff_eq]
      cases text with
      | nil => simp
      | cons d text =>
          refine ⟨fun last => ?_, by simp⟩
          rw [List.map_cons, List.getLast?_cons_cons] at last
          simpa using List.mem_of_getLast? last
  | cons c pattern ih =>
      have unreached (text : Text) (places : Places) (nowhere : true ∉ places) :
          (reach text (literal pattern) places).getLast? ≠ some true := fun last =>
        not_mem_reach_literal nowhere pattern (List.mem_of_getLast? last)
      rw [covers, reach_literal_cons, beq_iff_eq]
      cases text with
      | nil => simpa [advance] using unreached [] [false] (by simp)
      | cons d text =>
          rw [advance_single_atStart, reach_literal_behind, getLast?_false_cons, List.cons.injEq]
          by_cases same : c = d
          · have rest : (reach text (literal pattern) (atStart text)).getLast? = some true ↔
                text = pattern := by
              rw [← ih, covers, beq_iff_eq]
            rw [atStart] at rest
            simp only [same, beq_self_eq_true, true_and, rest]
          · have differ : (c == d) = false := beq_false_of_ne same
            simp [differ, Ne.symm same, unreached]

end Glob

/-! ## Names in a path -/

namespace Path

/-- Names stand on pieces of a path: a single name anywhere in its piece; of several names
the first one at the end of its piece, the last one at the start of its piece, and those
between them on whole pieces. -/
inductive Touches : List Text → List Text → Prop where
  | within {name piece : Text} (inside : name <:+: piece) : Touches [name] [piece]
  | across {first last start stop : Text} {middle : List Text} (ends : first <:+ start)
      (starts : last <+: stop) : Touches (first :: (middle ++ [last])) (start :: (middle ++ [stop]))

private theorem spelled_infix {run pieces : List Text} (stands : run <:+: pieces) :
    spelled run <:+: spelled pieces := by
  obtain ⟨front, back, rfl⟩ := stands
  by_cases empty : run = []
  · simp [empty, spelled]
  · have right : spelled run <+: spelled (run ++ back) := by
      by_cases none : back = []
      · simp [none]
      · rw [spelled_append empty none]
        exact List.prefix_append _ _
    have left : spelled (run ++ back) <:+ spelled (front ++ (run ++ back)) := by
      by_cases none : front = []
      · simp [none]
      · rw [spelled_append none (by simp [empty])]
        exact (List.suffix_cons _ _).trans (List.suffix_append _ _)
    rw [List.append_assoc]
    exact right.isInfix.trans left.isInfix

private theorem Touches.refl {names : List Text} (given : names ≠ []) : Touches names names := by
  cases names with
  | nil => exact absurd rfl given
  | cons first rest =>
      obtain rfl | ⟨middle, last, rfl⟩ := List.eq_nil_or_concat' rest
      · exact .within List.infix_rfl
      · exact .across List.suffix_rfl List.prefix_rfl

private theorem Touches.spelled_infix {names run : List Text} (touches : Touches names run) :
    spelled names <:+: spelled run := by
  cases touches with
  | within inside => simpa [spelled] using inside
  | @across first last start stop middle ends starts =>
      obtain ⟨before, rfl⟩ := ends
      obtain ⟨after, rfl⟩ := starts
      refine ⟨before, after, ?_⟩
      have joined (piece : Text) : spelled (middle ++ [piece ++ after]) =
          spelled (middle ++ [piece]) ++ after := by
        by_cases none : middle = []
        · simp [none, spelled]
        · rw [spelled_append none (by simp), spelled_append none (by simp)]
          simp [spelled]
      rw [spelled_cons (by simp), spelled_cons (by simp), joined]
      simp

/-- Names without slashes occur in a path exactly where they stand on consecutive pieces. -/
theorem spelled_infix_iff {names : List Text} (given : names ≠ [])
    (noSlash : ∀ name ∈ names, '/' ∉ name) (path : Text) :
    spelled names <:+: path ↔ ∃ run, run <:+: path.splitOn '/' ∧ Touches names run := by
  constructor
  · rintro ⟨before, after, rfl⟩
    obtain ⟨init, start, beforePieces⟩ := Text.exists_splitOn_eq_append '/' before
    obtain ⟨stop, more, afterPieces⟩ := List.exists_cons_of_ne_nil (List.splitOn_ne_nil '/' after)
    obtain ⟨front, last, rfl⟩ := (List.eq_nil_or_concat' names).resolve_left given
    have between : (spelled (front ++ [last])).splitOn '/' = front ++ [last] :=
      List.splitOn_intercalate '/' noSlash given
    have behind := Text.splitOn_append between afterPieces
    rw [List.append_assoc before]
    -- The first name goes on to the left in its piece, and the last one to the right.
    cases front with
    | nil =>
        rw [Text.splitOn_append beforePieces behind]
        refine ⟨[start ++ (last ++ stop)], ⟨init, more, by simp⟩, .within ?_⟩
        exact ⟨start, stop, by simp⟩
    | cons first middle =>
        rw [Text.splitOn_append beforePieces behind]
        refine ⟨(start ++ first) :: (middle ++ [last ++ stop]), ⟨init, more, by simp⟩, ?_⟩
        exact .across (List.suffix_append start first) (List.prefix_append last stop)
  · rintro ⟨run, stands, touches⟩
    have whole := touches.spelled_infix.trans (Path.spelled_infix stands)
    rwa [spelled, spelled, List.intercalate_splitOn] at whole

end Path

namespace Exclude

open PatchLint.Path

/-! ## What a plain pattern leaves out -/

/-- One piece of a path without wildcards. -/
structure IsPlainName (name : Text) : Prop where
  notEmpty : name ≠ []
  noSlash : '/' ∉ name
  noWildcard : ∀ c ∈ name, c ∉ ['*', '?', '[']

instance (name : Text) : Decidable (IsPlainName name) :=
  decidable_of_iff (name ≠ [] ∧ '/' ∉ name ∧ name.Forall (· ∉ ['*', '?', '[']))
    ⟨fun ⟨notEmpty, noSlash, noWildcard⟩ =>
        ⟨notEmpty, noSlash, List.forall_iff_forall_mem.mp noWildcard⟩,
      fun plain =>
        ⟨plain.notEmpty, plain.noSlash, List.forall_iff_forall_mem.mpr plain.noWildcard⟩⟩

private theorem partsFrom?_plain {pattern : Text} (plain : ∀ c ∈ pattern, c ∉ ['*', '?', '['])
    (previous : Option Char) :
    partsFrom? previous 0 pattern = some (pattern.map fun c => .one (.single c)) := by
  induction pattern generalizing previous with
  | nil => rfl
  | cons c pattern ih =>
      obtain ⟨here, behind⟩ := List.forall_mem_cons.mp plain
      simp only [List.mem_cons, List.not_mem_nil, or_false, not_or] at here
      rw [partsFrom?.eq_def]
      simp only [here, if_false, ih behind, Option.map_some, List.map_cons]

private theorem fragment_plain {pattern : Text} (plain : ∀ c ∈ pattern, c ∉ ['*', '?', '[']) :
    fragment pattern = pattern := by
  fun_induction fragment pattern with
  | case1 rest ih => exact absurd (plain '*' (by simp)) (by simp)
  | case2 c rest _ ih => rw [ih (List.forall_mem_cons.mp plain).2]
  | case3 => rfl

/-- The wildcard reading of a plain pattern adds nothing to the search for its characters. -/
theorem covers_iff_infix {c : Char} {rest : Text} (other : c ≠ '/')
    (plain : ∀ d ∈ c :: rest, d ∉ ['*', '?', '[']) (relative : Text) :
    covers (c :: rest) relative = true ↔ c :: rest <:+: relative := by
  have search : holdsFragment (c :: rest) relative = true ↔ c :: rest <:+: relative := by
    have notSlash : ¬ c :: rest <+: '/' :: relative := fun starts =>
      other (List.cons_prefix_cons.mp starts).1
    rw [holdsFragment, fragment_plain plain, Bool.and_eq_true, Text.occursIn_iff_infix,
      List.infix_cons_iff, or_iff_right notSlash]
    simp [other]
  rw [covers, Bool.or_eq_true, search, glob?, partsFrom?_plain plain]
  refine or_iff_right_of_imp fun matched => ?_
  obtain rfl := Glob.covers_literal_iff.mp matched
  exact List.infix_rfl

private theorem exists_spelled_eq_cons {names : List Text} (given : names ≠ [])
    (plain : ∀ name ∈ names, IsPlainName name) :
    ∃ c rest, spelled names = c :: rest ∧ c ≠ '/' := by
  cases names with
  | nil => exact absurd rfl given
  | cons name names =>
      obtain ⟨notEmpty, noSlash, _⟩ := plain name List.mem_cons_self
      obtain ⟨c, more, rfl⟩ := List.exists_cons_of_ne_nil notEmpty
      have other : c ≠ '/' := fun slash => noSlash (slash ▸ List.mem_cons_self)
      by_cases last : names = []
      · exact ⟨c, more, by simp [last, spelled], other⟩
      · exact ⟨c, _, by rw [spelled_cons last, List.cons_append], other⟩

private theorem noWildcard_of_mem_spelled {names : List Text}
    (plain : ∀ name ∈ names, IsPlainName name) : ∀ c ∈ spelled names, c ∉ ['*', '?', '['] := by
  induction names with
  | nil => simp [spelled]
  | cons name names ih =>
      obtain ⟨here, behind⟩ := List.forall_mem_cons.mp plain
      by_cases last : names = []
      · simpa [last, spelled] using here.noWildcard
      · rw [spelled_cons last, List.forall_mem_append, List.forall_mem_cons]
        exact ⟨here.noWildcard, by decide, ih behind⟩

/-- A plain pattern leaves out the paths on whose consecutive pieces its names stand, of which
the first piece only has to end with its name and the last one to start with it. So it leaves
out only what it names if and only if the names are whole pieces wherever they stand. -/
theorem covers_plain_iff {names : List Text} (given : names ≠ [])
    (plain : ∀ name ∈ names, IsPlainName name) (relative : Text) :
    (covers (spelled names) relative = true ↔
      ∃ run, run <:+: relative.splitOn '/' ∧ Touches names run) ∧
    ((covers (spelled names) relative = true → names <:+: relative.splitOn '/') ↔
      ∀ run, run <:+: relative.splitOn '/' → Touches names run →
        names <:+: relative.splitOn '/') ∧
    (names <:+: relative.splitOn '/' → covers (spelled names) relative = true) := by
  have covered : covers (spelled names) relative = true ↔
      ∃ run, run <:+: relative.splitOn '/' ∧ Touches names run := by
    obtain ⟨c, rest, spelling, other⟩ := exists_spelled_eq_cons given plain
    rw [← spelled_infix_iff given (fun name member => (plain name member).noSlash), spelling]
    exact covers_iff_infix other (spelling ▸ noWildcard_of_mem_spelled plain) relative
  refine ⟨covered, ?_, fun named => covered.mpr ⟨names, named, .refl given⟩⟩
  rw [covered]
  constructor
  · intro onlyNamed run stands touches
    exact onlyNamed ⟨run, stands, touches⟩
  · rintro onlyNamed ⟨run, stands, touches⟩
    exact onlyNamed run stands touches

/-- The name `Gen` ends one piece and `Proxy` starts the next one, so the path is left out. -/
theorem covers_plain_iff_partsOfPieces :
    Touches ["Gen".toList, "Proxy".toList] ["CodeGen".toList, "ProxyFactory.cs".toList] ∧
      covers (spelled ["Gen".toList, "Proxy".toList]) "Mod/CodeGen/ProxyFactory.cs".toList =
        true := by
  have touches : Touches ("Gen".toList :: ([] ++ ["Proxy".toList]))
      ("CodeGen".toList :: ([] ++ ["ProxyFactory.cs".toList])) :=
    .across (by decide) (by decide)
  have plain : ∀ name ∈ ["Gen".toList, "Proxy".toList], IsPlainName name := by decide
  have stands : ["CodeGen".toList, "ProxyFactory.cs".toList] <:+:
      "Mod/CodeGen/ProxyFactory.cs".toList.splitOn '/' := ⟨["Mod".toList], [], by decide⟩
  have covered := covers_plain_iff (by simp) plain "Mod/CodeGen/ProxyFactory.cs".toList
  exact ⟨touches, covered.1.mpr ⟨_, stands, touches⟩⟩

/-- The pattern `Gen` leaves out a file at the top that is called otherwise. -/
theorem covers_plain_otherFile :
    IsPlainName "Gen".toList ∧ covers "Gen".toList "Generated.cs".toList = true ∧
      ¬ ["Gen".toList] <:+: "Generated.cs".toList.splitOn '/' :=
  ⟨by decide, by decide, by decide⟩

end Exclude

end PatchLint
