import PatchLint.Proofs.Bytewise.Context
import PatchLint.Proofs.Text.Bytes
import PatchLint.Rule.MagicNumber

/-!
# Identifiers near a number

A number counts as part of an identifier when the shape of one lies in the window of
twenty bytes on each side of the number. Here the shapes are said without the search,
and the window in byte positions of the line. An identifier is longer than the window
is wide, so the number itself may be one of its groups and the identifier still not fit:
its first two groups and its last one are not covered by the identifier alone.
-/

namespace PatchLint

namespace GuidContext

/-! ## Shapes -/

/-- Groups of hexadecimal digits of these lengths, joined by dashes. -/
def IsGrouped (sizes : List Nat) (text : Text) : Prop :=
  ∃ groups : List Text, groups.map List.length = sizes ∧
    (∀ group ∈ groups, group.all isHexDigit = true) ∧ text = List.intercalate ['-'] groups

/-- A full identifier. -/
def IsGuid (text : Text) : Prop :=
  IsGrouped [8, 4, 4, 4, 12] text

/-- Hexadecimal digits and dashes, at least one, between two delimiters. -/
def IsDelimited (opening closing : Char) (text : Text) : Prop :=
  ∃ run : Text, run ≠ [] ∧ run.all isHexOrDash = true ∧ text = opening :: (run ++ [closing])

/-- A full identifier, or a quoted or braced part of one. -/
def IsShape (text : Text) : Prop :=
  IsGuid text ∨ IsDelimited '"' '"' text ∨ IsDelimited '{' '}' text

variable {line text shape piece : Text}

private theorem isGrouped_singleton {size : Nat} :
    IsGrouped [size] piece ↔ piece.length = size ∧ piece.all isHexDigit = true := by
  constructor
  · rintro ⟨groups, lengths, hex, rfl⟩
    obtain ⟨group, rfl, rfl⟩ := List.map_eq_singleton_iff.mp lengths
    simpa using hex
  · rintro ⟨rfl, hex⟩
    exact ⟨[piece], rfl, by simpa using hex, by simp⟩

private theorem isGrouped_cons {size next : Nat} {more : List Nat} :
    IsGrouped (size :: next :: more) piece ↔
      ∃ group rest : Text, group.length = size ∧ group.all isHexDigit = true ∧
        IsGrouped (next :: more) rest ∧ piece = group ++ '-' :: rest := by
  constructor
  · rintro ⟨groups, lengths, hex, rfl⟩
    obtain ⟨group, others, rfl, rfl, othersLengths⟩ := List.map_eq_cons_iff.mp lengths
    rw [List.forall_mem_cons] at hex
    refine ⟨group, List.intercalate ['-'] others, rfl, hex.1,
      ⟨others, othersLengths, hex.2, rfl⟩, ?_⟩
    obtain ⟨second, third, rfl, _, _⟩ := List.map_eq_cons_iff.mp othersLengths
    rw [List.intercalate_cons_cons]
    simp
  · rintro ⟨group, rest, rfl, hex, ⟨others, othersLengths, othersHex, rfl⟩, rfl⟩
    refine ⟨group :: others, by simp [othersLengths], List.forall_mem_cons.mpr ⟨hex, othersHex⟩, ?_⟩
    obtain ⟨second, third, rfl, _, _⟩ := List.map_eq_cons_iff.mp othersLengths
    rw [List.intercalate_cons_cons]
    simp

private theorem takesGroup_iff {size : Nat} :
    (decide (size ≤ text.length) && (text.take size).all isHexDigit) = true ↔
      ∃ group rest : Text, text = group ++ rest ∧ group.length = size ∧
        group.all isHexDigit = true := by
  rw [Bool.and_eq_true, decide_eq_true_eq]
  constructor
  · rintro ⟨fits, hex⟩
    exact ⟨text.take size, text.drop size, (List.take_append_drop _ _).symm,
      List.length_take_of_le fits, hex⟩
  · rintro ⟨group, rest, rfl, rfl, hex⟩
    rw [List.take_left]
    exact ⟨by simp, hex⟩

/-- The search reads a text group by group. -/
theorem startsWithGroups_iff {size : Nat} {more : List Nat} :
    startsWithGroups (size :: more) text = true ↔
      ∃ piece rest, text = piece ++ rest ∧ IsGrouped (size :: more) piece := by
  induction more generalizing size text with
  | nil =>
      rw [startsWithGroups, takesGroup_iff]
      simp only [isGrouped_singleton]
  | cons next more ih =>
      rw [startsWithGroups, Bool.and_eq_true, takesGroup_iff]
      swap
      · simp
      constructor
      · rintro ⟨⟨group, rest, rfl, rfl, hex⟩, goesOn⟩
        rw [List.drop_left] at goesOn
        split at goesOn
        next behind =>
          obtain ⟨piece, tail, rfl, grouped⟩ := ih.mp goesOn
          exact ⟨group ++ '-' :: piece, tail, by simp,
            isGrouped_cons.mpr ⟨group, piece, rfl, hex, grouped, rfl⟩⟩
        next => simp at goesOn
      · rintro ⟨piece, rest, rfl, grouped⟩
        obtain ⟨group, tail, rfl, hex, tailGrouped, rfl⟩ := isGrouped_cons.mp grouped
        refine ⟨⟨group, '-' :: tail ++ rest, by simp, rfl, hex⟩, ?_⟩
        rw [List.append_assoc, List.drop_left]
        exact ih.mpr ⟨tail, rest, rfl, tailGrouped⟩

private theorem startsWithDelimited_iff {opening closing : Char}
    (other : isHexOrDash closing = false) :
    startsWithDelimited opening closing text = true ↔
      ∃ piece rest, text = piece ++ rest ∧ IsDelimited opening closing piece := by
  cases text with
  | nil => simp [startsWithDelimited, IsDelimited]
  | cons c text =>
      rw [startsWithDelimited, Bool.and_eq_true, Bool.and_eq_true, beq_iff_eq, beq_iff_eq]
      constructor
      · rintro ⟨⟨rfl, some⟩, closes⟩
        obtain ⟨rest, behind⟩ := List.head?_eq_some_iff.mp closes
        refine ⟨c :: (text.takeWhile isHexOrDash ++ [closing]), rest, ?_, _, ?_, ?_, rfl⟩
        · rw [List.cons_append, List.append_assoc, List.singleton_append, ← behind,
            List.takeWhile_append_dropWhile]
        · simpa using some
        · exact List.all_takeWhile
      · rintro ⟨_, rest, split, run, some, hex, rfl⟩
        rw [List.cons_append, List.cons.injEq, List.append_assoc, List.singleton_append] at split
        obtain ⟨rfl, rfl⟩ := split
        rw [List.all_eq_true] at hex
        rw [List.takeWhile_append_of_pos hex, List.dropWhile_append_of_pos hex]
        simp [other, some]

/-- The search finds a shape where there is one. -/
theorem hasGuidShape_iff :
    hasGuidShape text = true ↔
      ∃ front shape back, text = front ++ (shape ++ back) ∧ IsShape shape := by
  have starts : ∀ {text : Text}, startsLikeGuid text = true ↔
      ∃ shape back, text = shape ++ back ∧ IsShape shape := by
    intro text
    rw [startsLikeGuid, Bool.or_eq_true, Bool.or_eq_true, groupLengths, startsWithGroups_iff,
      startsWithDelimited_iff (by decide), startsWithDelimited_iff (by decide)]
    simp only [IsShape, IsGuid, and_or_left, exists_or, or_assoc]
  rw [hasGuidShape, List.any_eq_true]
  constructor
  · rintro ⟨cut, member, found⟩
    obtain ⟨shape, back, after, isShape⟩ := starts.mp found
    refine ⟨cut.before.reverse, shape, back, ?_, isShape⟩
    rw [← after, Text.append_of_mem_cuts member]
  · rintro ⟨front, shape, back, rfl, isShape⟩
    exact ⟨_, Text.mem_cuts_append front (shape ++ back), starts.mpr ⟨shape, back, rfl, isShape⟩⟩

/-! ## Shapes take one byte for each character -/

private theorem utf8Size_of_isHexOrDash {c : Char} (hex : isHexOrDash c = true) :
    c.utf8Size = 1 := by
  simp only [isHexOrDash, isHexDigit, Char.isDigit, Bool.or_eq_true, Bool.and_eq_true,
    decide_eq_true_eq, beq_iff_eq, Char.le_def] at hex
  rw [Char.utf8Size_eq_one_iff]
  rcases hex with ((⟨_, below⟩ | ⟨_, below⟩) | ⟨_, below⟩) | rfl
  · exact UInt32.le_trans below (by decide)
  · exact UInt32.le_trans below (by decide)
  · exact UInt32.le_trans below (by decide)
  · decide

private theorem IsGrouped.all_isHexOrDash {sizes : List Nat} (grouped : IsGrouped sizes piece) :
    ∀ c ∈ piece, isHexOrDash c = true := by
  induction sizes generalizing piece with
  | nil =>
      obtain ⟨groups, lengths, _, rfl⟩ := grouped
      simp [List.map_eq_nil_iff.mp lengths]
  | cons size more ih =>
      have digits : ∀ {group : Text}, group.all isHexDigit = true →
          ∀ c ∈ group, isHexOrDash c = true := by
        intro group hex c member
        rw [isHexOrDash, List.all_eq_true.mp hex c member, Bool.true_or]
      cases more with
      | nil => exact digits (isGrouped_singleton.mp grouped).2
      | cons next more =>
          obtain ⟨group, rest, _, hex, restGrouped, rfl⟩ := isGrouped_cons.mp grouped
          rw [List.forall_mem_append, List.forall_mem_cons]
          exact ⟨digits hex, by decide, ih restGrouped⟩

private theorem IsDelimited.utf8Size_eq {opening closing : Char}
    (openingSize : opening.utf8Size = 1)
    (closingSize : closing.utf8Size = 1) (delimited : IsDelimited opening closing piece) :
    ∀ c ∈ piece, c.utf8Size = 1 := by
  obtain ⟨run, _, hex, rfl⟩ := delimited
  rw [List.forall_mem_cons, List.forall_mem_append, List.forall_mem_singleton]
  exact ⟨openingSize, fun c member => utf8Size_of_isHexOrDash (List.all_eq_true.mp hex c member),
    closingSize⟩

private theorem IsShape.utf8Size_eq (isShape : IsShape shape) : ∀ c ∈ shape, c.utf8Size = 1 := by
  rcases isShape with isGuid | quoted | braced
  · exact fun c member => utf8Size_of_isHexOrDash (isGuid.all_isHexOrDash c member)
  · exact quoted.utf8Size_eq (by decide) (by decide)
  · exact braced.utf8Size_eq (by decide) (by decide)

private theorem IsShape.ne_nil (isShape : IsShape shape) : shape ≠ [] := by
  rcases isShape with isGuid | ⟨run, _, _, rfl⟩ | ⟨run, _, _, rfl⟩
  · obtain ⟨group, rest, _, _, _, rfl⟩ := isGrouped_cons.mp isGuid
    simp
  · simp
  · simp

/-! ## The window -/

/-- The piece stands in the line from byte `first` to byte `last`. -/
def StandsAt (line piece : Text) (first last : Nat) : Prop :=
  ∃ front back, line = front ++ (piece ++ back) ∧ front.byteSize = first ∧
    first + piece.byteSize = last

variable {start stop first last : Nat}

/-- The window is widened to whole characters, but a shape has no character of more than one byte,
so it gains nothing from that. -/
theorem exists_standsAt_of_any_nearby?
    (found : (nearby? line start stop).any hasGuidShape = true) :
    ∃ shape first last, IsShape shape ∧ StandsAt line shape first last ∧
      start ≤ first + window ∧ last ≤ stop + window := by
  obtain ⟨_, ends⟩ := Text.charsWithin_spec (start - window) line
  obtain ⟨_, starts⟩ := Text.charsBefore_spec (stop + window) line
  rw [nearby?] at found
  set cutFrom := Text.charsWithin (start - window) line
  set cutTo := Text.charsBefore (stop + window) line
  split at found
  swap
  · simp at found
  next ordered =>
    rw [Option.any_some] at found
    obtain ⟨front, shape, back, cut, isShape⟩ := hasGuidShape_iff.mp found
    have upTo : line.take cutTo = line.take cutFrom ++ (front ++ (shape ++ back)) := by
      rw [← cut, Text.take_append_between ordered]
    have behind : line.drop cutFrom = front ++ (shape ++ (back ++ line.drop cutTo)) := by
      have both :
          line.take cutFrom ++ line.drop cutFrom = line.take cutTo ++ line.drop cutTo := by
        rw [List.take_append_drop, List.take_append_drop]
      rw [upTo, List.append_assoc, List.append_cancel_left_eq] at both
      simpa using both
    refine ⟨shape, _, _, isShape,
      ⟨line.take cutFrom ++ front, back ++ line.drop cutTo, ?_, rfl, rfl⟩, ?_, ?_⟩
    · rw [List.append_assoc, ← behind, List.take_append_drop]
    · -- The character behind the first cut is one byte wide if it belongs to the shape.
      rw [Text.byteSize_append]
      cases front with
      | nil =>
          obtain ⟨c, more, rfl⟩ := List.exists_cons_of_ne_nil isShape.ne_nil
          have bound := ends c _ behind
          rw [isShape.utf8Size_eq c List.mem_cons_self] at bound
          rw [Text.byteSize_nil]
          omega
      | cons c front =>
          have bound := ends c _ behind
          rw [Text.byteSize_cons]
          omega
    · -- So is the character before the second cut.
      obtain rfl | ⟨back, c, rfl⟩ := List.eq_nil_or_concat' back
      · obtain rfl | ⟨shape, c, rfl⟩ := List.eq_nil_or_concat' shape
        · exact absurd rfl isShape.ne_nil
        have bound := starts (line.take cutFrom ++ (front ++ shape)) c (by simp [upTo])
        have size := isShape.utf8Size_eq c (by simp)
        simp only [Text.byteSize_append, Text.byteSize_cons, Text.byteSize_nil, size] at bound ⊢
        omega
      · have bound := starts (line.take cutFrom ++ (front ++ (shape ++ back))) c (by simp [upTo])
        simp only [Text.byteSize_append] at bound ⊢
        omega

private theorem any_nearby?_of_standsAt (isShape : IsShape shape)
    (stands : StandsAt line shape first last)
    (near : start ≤ first + window) (alsoNear : last ≤ stop + window) :
    (nearby? line start stop).any hasGuidShape = true := by
  obtain ⟨front, back, rfl, rfl, rfl⟩ := stands
  obtain ⟨reached, _⟩ := Text.charsWithin_spec (start - window) (front ++ (shape ++ back))
  obtain ⟨reaches, _⟩ := Text.charsBefore_spec (stop + window) (front ++ (shape ++ back))
  have inside := Text.charsWithin_le_length (start - window) (front ++ (shape ++ back))
  rw [nearby?]
  set cutFrom := Text.charsWithin (start - window) (front ++ (shape ++ back))
  set cutTo := Text.charsBefore (stop + window) (front ++ (shape ++ back))
  have fromFront : cutFrom ≤ front.length := by
    rw [← Text.byteSize_take_le_iff inside, List.take_left]
    omega
  have length : (front ++ shape).length ≤ (front ++ (shape ++ back)).length := by simp
  have toBack : (front ++ shape).length ≤ cutTo := by
    rw [← Text.byteSize_take_le_iff length, ← List.append_assoc front shape back, List.take_left,
      List.append_assoc]
    simp only [Text.byteSize_append] at reaches ⊢
    omega
  have cut : ((front ++ (shape ++ back)).take cutTo).drop cutFrom =
      front.drop cutFrom ++ (shape ++ back.take (cutTo - (front ++ shape).length)) := by
    rw [← List.append_assoc, List.take_append, List.take_of_length_le toBack, List.append_assoc,
      List.drop_append_of_le_length fromFront]
  have ordered : cutFrom ≤ cutTo := by
    rw [List.length_append] at toBack
    omega
  rw [if_pos ordered, Option.any_some, cut]
  exact hasGuidShape_iff.mpr ⟨_, shape, _, rfl, isShape⟩

/-- A shape in the window around a number is one that lies within the window in bytes. -/
theorem any_nearby?_iff :
    (nearby? line start stop).any hasGuidShape = true ↔
      ∃ shape first last, IsShape shape ∧ StandsAt line shape first last ∧
        start ≤ first + window ∧ last ≤ stop + window := by
  constructor
  · exact exists_standsAt_of_any_nearby?
  · rintro ⟨shape, first, last, isShape, stands, near, alsoNear⟩
    exact any_nearby?_of_standsAt isShape stands near alsoNear

/-! ## Parts of an identifier -/

private theorem IsGrouped.length_eq {size : Nat} {more : List Nat}
    (grouped : IsGrouped (size :: more) piece) :
    piece.length = size + more.foldr (fun next total => next + 1 + total) 0 := by
  induction more generalizing size piece with
  | nil =>
      obtain ⟨rfl, _⟩ := isGrouped_singleton.mp grouped
      simp
  | cons next more ih =>
      obtain ⟨group, rest, rfl, _, restGrouped, rfl⟩ := isGrouped_cons.mp grouped
      rw [List.length_append, List.length_cons, ih restGrouped, List.foldr_cons]
      omega

private theorem IsGuid.byteSize_eq (isGuid : IsGuid text) : text.byteSize = 36 := by
  rw [Text.byteSize_eq_length (IsShape.utf8Size_eq (.inl isGuid)), IsGrouped.length_eq isGuid]
  rfl

/-- What excuses the bytes from `start` to `stop` of a line with an identifier from `first` to
`last`: the identifier, if they start within its first twenty bytes and end behind its first
sixteen; a word of metadata; or another shape nearby. -/
def Excused (line : Text) (first last start stop : Nat) : Prop :=
  (start ≤ first + 20 ∧ first + 16 ≤ stop) ∨ mentionsKeyword line = true ∨
    ∃ shape shapeFirst shapeLast, IsShape shape ∧ StandsAt line shape shapeFirst shapeLast ∧
      (shapeFirst, shapeLast) ≠ (first, last) ∧
      start ≤ shapeFirst + window ∧ shapeLast ≤ stop + window

private theorem inGuidContext_iff_excused (isGuid : IsGuid piece)
    (stands : StandsAt line piece first last) :
    inGuidContext line start stop = true ↔ Excused line first last start stop := by
  have size : first + 36 = last := by
    obtain ⟨_, _, _, _, ends⟩ := stands
    rwa [isGuid.byteSize_eq] at ends
  have fits : (start ≤ first + 20 ∧ first + 16 ≤ stop) ↔
      (start ≤ first + window ∧ last ≤ stop + window) := by
    rw [window]
    omega
  rw [inGuidContext, Bool.or_eq_true, any_nearby?_iff, Excused, fits]
  constructor
  · rintro (keyword | ⟨shape, shapeFirst, shapeLast, isShape, shapeStands, near⟩)
    · exact .inr (.inl keyword)
    · by_cases same : (shapeFirst, shapeLast) = (first, last)
      · obtain ⟨rfl, rfl⟩ := Prod.mk.inj same
        exact .inl near
      · exact .inr (.inr ⟨shape, shapeFirst, shapeLast, isShape, shapeStands, same, near⟩)
  · rintro (near | keyword | ⟨shape, shapeFirst, shapeLast, isShape, shapeStands, _, near⟩)
    · exact .inr ⟨piece, first, last, .inl isGuid, stands, near⟩
    · exact .inl keyword
    · exact .inr ⟨shape, shapeFirst, shapeLast, isShape, shapeStands, near⟩

end GuidContext

namespace MagicNumber

open GuidContext

variable {file : SourceFile} {line guid : Text} {first last start stop row : Nat}

private theorem checkNumber_eq_none_iff {number : Occurrence} :
    checkNumber file (line, row) number = none ↔
      shown? number.digits = none ∨
        inGuidContext line number.start (number.start + Text.byteSize number.digits) = true := by
  rw [checkNumber]
  cases shown? number.digits <;> simp

private theorem checkLiteral_eq_none_iff {focus : Focus}
    (lineEq : file.line? (focus.node.line file.content) = some line)
    (range : columns file.content line focus.node = (start, stop)) :
    checkLiteral file focus = none ↔
      (focus.node.text? file.content).bind (shownLiteral? focus.node.kind) = none ∨
        focus.inConstDeclaration file.content = true ∨ inGuidContext line start stop = true := by
  rw [checkLiteral]
  simp only [lineEq, Option.getD_some, range]
  cases focus.node.text? file.content with
  | none => simp
  | some literal =>
      simp only [Option.bind_eq_bind, Option.bind_some]
      cases shownLiteral? focus.node.kind literal with
      | none => simp
      | some shown => cases focus.inConstDeclaration file.content <;> simp

/-- What keeps both rules from reporting a part of an identifier. Being a part is not enough:
the two groups of digits in front and the last one lie too far from one end. -/
theorem guid_part_unreported_iff (isGuid : IsGuid guid) (stands : StandsAt line guid first last)
    (start stop : Nat) :
    (inGuidContext line start stop = true ↔ Excused line first last start stop) ∧
    (∀ file row number, number.start = start → start + Text.byteSize number.digits = stop →
      (checkNumber file (line, row) number = none ↔
        shown? number.digits = none ∨ Excused line first last start stop)) ∧
    ∀ (file : SourceFile) (focus : Focus),
      file.line? (focus.node.line file.content) = some line →
      columns file.content line focus.node = (start, stop) →
      (checkLiteral file focus = none ↔
        (focus.node.text? file.content).bind (shownLiteral? focus.node.kind) = none ∨
          focus.inConstDeclaration file.content = true ∨ Excused line first last start stop) := by
  have known : inGuidContext line start stop = true ↔ Excused line first last start stop :=
    inGuidContext_iff_excused isGuid stands
  refine ⟨known, ?_, ?_⟩
  · rintro file row number rfl rfl
    rw [checkNumber_eq_none_iff, known]
  · intro file focus lineEq range
    rw [checkLiteral_eq_none_iff lineEq range, known]

/-- A line of code with an identifier of the bytes from 8 to 44. -/
def assigned (guid : String) : SourceFile :=
  .ofText "G.cs".toList ("var g = ".toList ++ (guid.toList ++ [';']))

private theorem standsAt_assigned {guid : String} (isGuid : IsGuid guid.toList) :
    StandsAt (assigned guid).content guid.toList 8 44 :=
  ⟨"var g = ".toList, [';'], rfl, rfl, by rw [isGuid.byteSize_eq]⟩

/-- A middle group is excused by its identifier, in both rules. -/
theorem guid_part_unreported_middleGroup :
    inGuidContext (assigned "3f2504e0-4f89-0101-9a0c-0305e82c3301").content 22 26 = true ∧
      checkNumber (assigned "3f2504e0-4f89-0101-9a0c-0305e82c3301")
        ((assigned "3f2504e0-4f89-0101-9a0c-0305e82c3301").content, 1)
        ⟨22, "0101".toList⟩ = none ∧
      checkLiteral (assigned "3f2504e0-4f89-0101-9a0c-0305e82c3301")
        (.root ⟨"integer_literal", true, 22, 26, none, []⟩) = none := by
  have isGuid : IsGuid "3f2504e0-4f89-0101-9a0c-0305e82c3301".toList :=
    ⟨["3f2504e0".toList, "4f89".toList, "0101".toList, "9a0c".toList, "0305e82c3301".toList],
      by decide, by decide, by decide⟩
  have whole := guid_part_unreported_iff isGuid (standsAt_assigned isGuid) 22 26
  refine ⟨whole.1.mpr (.inl (by decide)), ?_, ?_⟩
  · exact (whole.2.1 _ _ _ rfl rfl).mpr (.inr (.inl (by decide)))
  · exact (whole.2.2 _ _ (by decide) (by decide)).mpr (.inr (.inr (.inl (by decide))))

/-- The first group of this identifier is not excused, and the text rule reports it. -/
theorem guid_part_reported_firstGroup :
    IsGuid "12345678-1234-1234-1234-123456789012".toList ∧
      StandsAt (assigned "12345678-1234-1234-1234-123456789012").content
        "12345678-1234-1234-1234-123456789012".toList 8 44 ∧
      inGuidContext (assigned "12345678-1234-1234-1234-123456789012").content 8 16 = false ∧
      finding (assigned "12345678-1234-1234-1234-123456789012") 1 "12345678" ∈
        textRule.check (assigned "12345678-1234-1234-1234-123456789012") := by
  have isGuid : IsGuid "12345678-1234-1234-1234-123456789012".toList :=
    ⟨["12345678".toList, "1234".toList, "1234".toList, "1234".toList, "123456789012".toList],
      by decide, by decide, by decide⟩
  exact ⟨isGuid, standsAt_assigned isGuid, by decide, by decide⟩

end MagicNumber

end PatchLint
