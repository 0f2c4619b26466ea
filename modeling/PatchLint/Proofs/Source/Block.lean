import PatchLint.Source.Block

/-!
# Where blocks can stand

The search for a block reads characters together with their lines, so the lines
of a block are lines that were searched.
-/

namespace PatchLint.BlockSpan

/-- Located characters carry the numbers of their lines. -/
theorem mem_located {number : Nat} {lines : List Text} {place : Char × Nat}
    (member : place ∈ located number lines) :
    number ≤ place.2 ∧ place.2 < number + lines.length := by
  induction lines generalizing number with
  | nil => simp [located] at member
  | cons line rest ih =>
      rw [located, List.mem_append, List.mem_map] at member
      rcases member with ⟨c, _, rfl⟩ | later
      · simp
      · have bounds := ih later
        rw [List.length_cons]
        omega

/-- The search text lies between the line of its start and the last line. -/
theorem mem_searchText {code : List Text} {line column : Nat} {place : Char × Nat}
    (member : place ∈ searchText code line column) :
    line ≤ place.2 ∧ place.2 < code.length := by
  rw [searchText] at member
  split at member
  next => simp at member
  next first rest split =>
    have bounds := mem_located member
    have lengths := congrArg List.length split
    simp only [List.length_drop, List.length_cons] at lengths bounds
    omega

/-- A header ends at an opening brace, and what follows the brace is left. -/
theorem findOpen_eq_some {parens line : Nat} {text rest : List (Char × Nat)}
    (found : findOpen parens text = some (line, rest)) :
    ∃ header, text = header ++ ('{', line) :: rest := by
  fun_induction findOpen parens text with
  | case1 => simp at found
  | case2 parens number following =>
      injection found with found
      injection found with lineEq restEq
      subst lineEq restEq
      exact ⟨[], rfl⟩
  | case3 => simp at found
  | case4 _ number _ _ _ ih =>
      obtain ⟨header, rfl⟩ := ih found
      exact ⟨('(', number) :: header, rfl⟩
  | case5 _ number _ _ _ _ ih =>
      obtain ⟨header, rfl⟩ := ih found
      exact ⟨(')', number) :: header, rfl⟩
  | case6 _ c number _ _ _ _ _ ih =>
      obtain ⟨header, rfl⟩ := ih found
      exact ⟨(c, number) :: header, rfl⟩

/-- A body ends at a closing brace. -/
theorem findClose_mem {inner line : Nat} {empty blank : Bool} {text : List (Char × Nat)}
    (found : findClose inner empty text = some (line, blank)) : ('}', line) ∈ text := by
  fun_induction findClose inner empty text with
  | case1 => simp at found
  | case2 inner empty number rest ih => exact List.mem_cons_of_mem _ (ih found)
  | case3 empty number rest =>
      injection found with found
      injection found with lineEq
      subst lineEq
      exact List.mem_cons_self
  | case4 empty number rest _ outer ih => exact List.mem_cons_of_mem _ (ih found)
  | case5 inner empty c number rest _ _ ih => exact List.mem_cons_of_mem _ (ih found)

end BlockSpan

/-- A block ends on a line of the code, and not before the line where the search for it
starts. -/
theorem closeLine_bounds_of_blockSpan? {code : List Text} {line column : Nat} {span : BlockSpan}
    (found : blockSpan? code line column = some span) :
    line ≤ span.closeLine ∧ span.closeLine < code.length := by
  simp only [blockSpan?, Option.bind_eq_bind, Option.bind_eq_some_iff, Option.pure_def,
    Option.some.injEq, Prod.exists] at found
  obtain ⟨openLine, body, opened, closeLine, empty, closed, rfl⟩ := found
  obtain ⟨header, searched⟩ := BlockSpan.findOpen_eq_some opened
  have inBody := BlockSpan.findClose_mem closed
  have inText : ('}', closeLine) ∈ BlockSpan.searchText code line column := by
    rw [searched]
    simp [inBody]
  exact BlockSpan.mem_searchText inText

end PatchLint
