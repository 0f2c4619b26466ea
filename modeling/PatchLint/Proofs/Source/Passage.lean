import Mathlib.Data.List.Infix
import PatchLint.Proofs.Source.Matching
import PatchLint.Proofs.Text.Lines

/-!
# Blocks of a text

The search for a block reads lines and forgets the line feeds between them. Here it
is described on the text itself: behind a front that may end anywhere in a line, a
header, braces and a body, each on any number of lines, are found as the block that
they are.
-/

namespace PatchLint

namespace BlockSpan

/-! ## Characters of a text with their lines -/

private theorem located_append (number : Nat) (lines more : List Text) :
    located number (lines ++ more) =
      located number lines ++ located (number + lines.length) more := by
  induction lines generalizing number with
  | nil => rfl
  | cons line lines ih =>
      rw [List.cons_append, located, located, ih, List.append_assoc, List.length_cons,
        Nat.add_assoc, Nat.add_comm 1]

/-- A text goes on in the line in which what stands before it ends. -/
theorem located_lines_append (number : Nat) (front back : Text) :
    located number (front ++ back).lines =
      located number front.lines ++ located (number + front.count '\n') back.lines := by
  obtain ⟨init, frontLines, length⟩ := front.exists_lines_eq_append_lastLine
  obtain ⟨line, more, backLines⟩ := back.exists_lines_eq_cons
  rw [Text.lines_append frontLines backLines, frontLines, backLines, located_append,
    located_append, length]
  simp [located]

private theorem located_lines_cons {c : Char} (other : c ≠ '\n') (number : Nat) (rest : Text) :
    located number (Text.lines (c :: rest)) = (c, number) :: located number rest.lines := by
  obtain ⟨line, more, restLines⟩ := rest.exists_lines_eq_cons
  rw [Text.lines_cons_of_eq other restLines, restLines]
  rfl

/-- The characters are those of the text, its line feeds apart. -/
theorem map_fst_located_lines (number : Nat) (text : Text) :
    (located number text.lines).map Prod.fst = text.filter (· != '\n') := by
  rw [map_fst_located]
  induction text with
  | nil => rfl
  | cons c rest ih =>
      by_cases feed : c = '\n'
      · subst feed
        simpa using ih
      · obtain ⟨line, more, restLines⟩ := Text.exists_lines_eq_cons rest
        rw [restLines] at ih
        rw [Text.lines_cons_of_eq feed restLines]
        simpa [feed] using ih

/-! ## Line feeds do not matter -/

private theorem IsHeader.filter_newline {depth : Nat} {text : Text} (header : IsHeader depth text) :
    IsHeader depth (text.filter (· != '\n')) := by
  induction text generalizing depth with
  | nil => exact header
  | cons c text ih =>
      obtain ⟨notBrace, notEnd, rest⟩ := isHeader_cons.mp header
      by_cases feed : c = '\n'
      · subst feed
        exact ih rest
      · rw [List.filter_cons_of_pos (by simpa using feed)]
        exact isHeader_cons.mpr ⟨notBrace, notEnd, ih rest⟩

private theorem Balanced.filter_newline {text : Text} (balanced : Balanced text) :
    Balanced (text.filter (· != '\n')) where
  covered := by
    rintro front ⟨rest, split⟩
    obtain ⟨source, _, rfl, rfl, _⟩ := List.filter_eq_append_iff.mp split.symm
    rw [List.count_filter (by decide), List.count_filter (by decide)]
    exact balanced.covered source (List.prefix_append _ _)
  total := by
    rw [List.count_filter (by decide), List.count_filter (by decide)]
    exact balanced.total

private theorem all_isBlank_filter_newline (text : Text) :
    (text.filter (· != '\n')).all isBlank = text.all isBlank := by
  rw [List.all_filter]
  congr 1
  funext c
  by_cases feed : c = '\n'
  · subst feed
    decide
  · simp [feed]

/-! ## Deciding -/

instance decidableIsHeader (depth : Nat) : (text : Text) → Decidable (IsHeader depth text)
  | [] => .isTrue (isHeader_nil depth)
  | c :: text =>
    have := decidableIsHeader (parenStep depth c) text
    decidable_of_iff _ isHeader_cons.symm

private theorem balanced_iff_forall_mem_inits {text : Text} :
    ((∀ front ∈ text.inits, front.count '}' ≤ front.count '{') ∧
      text.count '}' = text.count '{') ↔ Balanced text := by
  simp only [List.mem_inits]
  exact ⟨fun ⟨covered, total⟩ => ⟨covered, total⟩, fun ⟨covered, total⟩ => ⟨covered, total⟩⟩

instance (text : Text) : Decidable (Balanced text) :=
  decidable_of_iff _ balanced_iff_forall_mem_inits

/-! ## Blocks -/

/-- Text without braces is balanced. -/
theorem balanced_of_not_mem {text : Text} (noOpen : '{' ∉ text) (noClose : '}' ∉ text) :
    Balanced text where
  covered front leads := by
    rw [List.count_eq_zero.mpr fun member => noClose (leads.subset member)]
    exact Nat.zero_le _
  total := by rw [List.count_eq_zero.mpr noOpen, List.count_eq_zero.mpr noClose]

/-- The search behind the front of a text reads the rest of the text. -/
theorem searchText_lines (front back : Text) :
    searchText (front ++ back).lines (front.count '\n') front.lastLine.byteSize =
      located (front.count '\n') back.lines := by
  obtain ⟨init, frontLines, length⟩ := front.exists_lines_eq_append_lastLine
  obtain ⟨line, more, backLines⟩ := back.exists_lines_eq_cons
  rw [Text.lines_append frontLines backLines, backLines, ← length]
  exact searchText_append init more front.lastLine line

end BlockSpan

open BlockSpan

/-- Behind the front of a text, a header and a balanced body in braces are the block
that is found. It is empty when the body is blank. -/
theorem blockSpan?_lines {header body : Text} (isHeader : IsHeader 0 header)
    (balanced : Balanced body) (front rest : Text) :
    blockSpan? (front ++ (header ++ '{' :: (body ++ '}' :: rest))).lines (front.count '\n')
        front.lastLine.byteSize =
      some ⟨(front ++ header).count '\n', (front ++ header ++ body).count '\n',
        body.all isBlank⟩ := by
  set number := front.count '\n' with numberEq
  have split : located number (header ++ '{' :: (body ++ '}' :: rest)).lines =
      located number header.lines ++ ('{', number + header.count '\n') ::
        (located (number + header.count '\n') body.lines ++
          ('}', number + header.count '\n' + body.count '\n') ::
            located (number + header.count '\n' + body.count '\n') rest.lines) := by
    rw [located_lines_append, located_lines_cons (by decide), located_lines_append,
      located_lines_cons (by decide)]
  let cut : Bracketed (located number (header ++ '{' :: (body ++ '}' :: rest)).lines) :=
    { header := located number header.lines
      openLine := number + header.count '\n'
      body := located (number + header.count '\n') body.lines
      closeLine := number + header.count '\n' + body.count '\n'
      rest := located (number + header.count '\n' + body.count '\n') rest.lines
      split := split
      isHeader := by
        rw [map_fst_located_lines]
        exact isHeader.filter_newline
      balanced := by
        rw [map_fst_located_lines]
        exact balanced.filter_newline }
  rw [blockSpan?, searchText_lines, search_eq_some_iff]
  refine ⟨cut, ?_, ?_, ?_⟩
  · exact List.count_append
  · change List.count '\n' (front ++ header ++ body) = _
    rw [List.count_append, List.count_append]
  · rw [← all_isBlank_filter_newline, ← map_fst_located_lines (number + header.count '\n'),
      List.all_map]
    rfl

end PatchLint
