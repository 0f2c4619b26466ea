import PatchLint.Text.Basic

/-!
# Byte positions

A byte position is one of a text when characters end there. Then what stands
before it and what follows it make up the text, and the size of what stands
before it is the position. Positions inside of a character are rounded down by
`charsWithin` and up by `charsBefore`.
-/

namespace PatchLint.Text

@[simp] theorem byteSize_nil : byteSize [] = 0 :=
  rfl

@[simp] theorem byteSize_cons (c : Char) (rest : Text) :
    byteSize (c :: rest) = c.utf8Size + byteSize rest :=
  rfl

/-- The bytes of two texts add up. -/
@[simp] theorem byteSize_append (front back : Text) :
    byteSize (front ++ back) = byteSize front + byteSize back := by
  induction front with
  | nil => simp
  | cons c rest ih => rw [List.cons_append, byteSize_cons, byteSize_cons, ih, Nat.add_assoc]

/-- Only the empty text has no bytes. -/
theorem byteSize_eq_zero_iff {text : Text} : text.byteSize = 0 ↔ text = [] := by
  cases text with
  | nil => simp
  | cons c rest =>
      have some := c.utf8Size_pos
      simp
      omega

/-- A text of narrow characters has as many bytes as characters. -/
theorem byteSize_eq_length {text : Text} (narrow : ∀ c ∈ text, c.utf8Size = 1) :
    text.byteSize = text.length := by
  induction text with
  | nil => rfl
  | cons c rest ih =>
      rw [List.forall_mem_cons] at narrow
      rw [byteSize_cons, List.length_cons, narrow.1, ih narrow.2, Nat.add_comm]

/-- A position between characters splits the text. -/
theorem dropBytes?_eq_some_iff {bytes : Nat} {text rest : Text} :
    dropBytes? bytes text = some rest ↔ ∃ front, text = front ++ rest ∧ front.byteSize = bytes := by
  fun_induction dropBytes? bytes text with
  | case1 text =>
      constructor
      · rintro ⟨⟩
        exact ⟨[], rfl, rfl⟩
      · rintro ⟨front, rfl, size⟩
        rw [byteSize_eq_zero_iff.mp size, List.nil_append]
  | case2 bytes =>
      refine iff_of_false (by simp) ?_
      rintro ⟨front, empty, size⟩
      obtain ⟨rfl, _⟩ := List.append_eq_nil_iff.mp empty.symm
      simp at size
  | case3 bytes c text fits ih =>
      rw [ih]
      constructor
      · rintro ⟨front, rfl, size⟩
        refine ⟨c :: front, rfl, ?_⟩
        rw [byteSize_cons, size, Nat.add_sub_of_le fits]
      · rintro ⟨front, split, size⟩
        cases front with
        | nil => simp at size
        | cons d front =>
            rw [List.cons_append, List.cons.injEq] at split
            obtain ⟨rfl, rfl⟩ := split
            exact ⟨front, rfl, Nat.eq_sub_of_add_eq' size⟩
  | case4 bytes c text tooLarge =>
      refine iff_of_false (by simp) ?_
      rintro ⟨front, split, size⟩
      cases front with
      | nil => simp at size
      | cons d front =>
          rw [List.cons_append, List.cons.injEq] at split
          obtain ⟨rfl, _⟩ := split
          rw [byteSize_cons] at size
          omega

/-- A byte position inside of a text does not see what is put behind the text. -/
theorem dropBytes?_append {bytes : Nat} {text : Text} (inside : bytes ≤ text.byteSize)
    (more : Text) : dropBytes? bytes (text ++ more) = (dropBytes? bytes text).map (· ++ more) := by
  induction text generalizing bytes with
  | nil =>
      have zero : bytes = 0 := Nat.le_zero.mp inside
      subst zero
      simp [dropBytes?]
  | cons c rest ih =>
      cases bytes with
      | zero => rfl
      | succ bytes =>
          rw [List.cons_append, dropBytes?, dropBytes?]
          rw [byteSize_cons] at inside
          split
          next fits => exact ih (by omega)
          next => rfl

/-- Nothing is left behind the last byte. -/
theorem dropBytes?_byteSize (text : Text) : dropBytes? text.byteSize text = some [] := by
  induction text with
  | nil => rfl
  | cons c rest ih =>
      have positive := c.utf8Size_pos
      have size : byteSize (c :: rest) = byteSize rest + (c.utf8Size - 1) + 1 := by
        rw [byteSize_cons]
        omega
      have fits : c.utf8Size ≤ byteSize rest + (c.utf8Size - 1) + 1 := by omega
      have left : byteSize rest + (c.utf8Size - 1) + 1 - c.utf8Size = byteSize rest := by omega
      rw [size, dropBytes?, if_pos fits, left, ih]

/-- The characters within the first bytes are found without what follows. -/
theorem charsWithin_append {bytes : Nat} {text : Text} (inside : bytes ≤ text.byteSize)
    (more : Text) : charsWithin bytes (text ++ more) = charsWithin bytes text := by
  induction text generalizing bytes with
  | nil =>
      have zero : bytes = 0 := Nat.le_zero.mp inside
      subst zero
      cases more with
      | nil => rfl
      | cons c more => simp [charsWithin, Nat.ne_of_gt c.utf8Size_pos]
  | cons c rest ih =>
      rw [byteSize_cons] at inside
      rw [List.cons_append, charsWithin, charsWithin]
      split
      next fits => rw [ih (by omega)]
      next => rfl

/-- No more characters end within some bytes than there are. -/
theorem charsWithin_le_length (bytes : Nat) (text : Text) :
    charsWithin bytes text ≤ text.length := by
  fun_induction charsWithin bytes text with
  | case1 => simp
  | case2 bytes c rest _ ih =>
      rw [List.length_cons]
      omega
  | case3 => simp

/-- One more character starts before a byte that lies behind the text. -/
theorem charsBefore_append_singleton (bytes : Nat) (text : Text) (last : Char) :
    charsBefore bytes (text ++ [last]) =
      charsBefore bytes text + if text.byteSize < bytes then 1 else 0 := by
  induction text generalizing bytes with
  | nil =>
      have none : ∀ bytes, charsBefore bytes [] = 0 := by rintro (_ | bytes) <;> rfl
      cases bytes <;> simp [charsBefore, none]
  | cons c rest ih =>
      cases bytes with
      | zero => simp [charsBefore]
      | succ bytes =>
          have behind : byteSize (c :: rest) < bytes + 1 ↔
              byteSize rest < bytes + 1 - c.utf8Size := by
            rw [byteSize_cons]
            omega
          rw [List.cons_append, charsBefore, charsBefore, ih, Nat.add_assoc]
          simp only [behind]

/-- No more characters start before a byte than there are. -/
theorem charsBefore_le_length (bytes : Nat) (text : Text) :
    charsBefore bytes text ≤ text.length := by
  fun_induction charsBefore bytes text with
  | case1 => simp
  | case2 => simp
  | case3 bytes c rest ih =>
      rw [List.length_cons]
      omega

/-- All characters start before a byte that lies behind the text. -/
theorem charsBefore_eq_length {bytes : Nat} {text : Text} (behind : text.byteSize < bytes) :
    charsBefore bytes text = text.length := by
  induction text generalizing bytes with
  | nil => cases bytes <;> rfl
  | cons c rest ih =>
      rw [byteSize_cons] at behind
      obtain ⟨more, rfl⟩ : ∃ more, bytes = more + 1 := ⟨bytes - 1, by omega⟩
      rw [charsBefore, ih (by omega), List.length_cons, Nat.add_comm]

/-! ## Parts of a text -/

/-- What follows a start is what stands behind it. -/
theorem after?_eq_some_iff {start text rest : Text} :
    after? start text = some rest ↔ text = start ++ rest := by
  rw [after?, Option.ite_none_right_eq_some, List.isPrefixOf_iff_prefix]
  constructor
  · rintro ⟨⟨behind, rfl⟩, found⟩
    simpa using found
  · rintro rfl
    exact ⟨List.prefix_append start rest, by simp⟩

section Runs

variable {α : Type} {test : α → Bool} {front rest : List α}

/-- What comes behind a run that passes a test does not pass it. -/
theorem head?_dropWhile_any (test : α → Bool) (items : List α) :
    (items.dropWhile test).head?.any test = false := by
  have fails := List.head?_dropWhile_not test items
  cases behind : (items.dropWhile test).head? with
  | none => rfl
  | some item =>
      rw [behind] at fails
      exact fails

/-- Reading while a test is passed stops at the first item that does not pass it. -/
theorem takeWhile_append_of_stop (passed : ∀ item ∈ front, test item = true)
    (stop : rest.head?.any test = false) : (front ++ rest).takeWhile test = front := by
  rw [List.takeWhile_append_of_pos passed]
  cases rest with
  | nil => simp
  | cons item rest =>
      have fails : test item = false := stop
      simp [fails]

/-- Dropping a run that passes stops at the first item that fails. -/
theorem dropWhile_append_of_stop (passed : ∀ item ∈ front, test item = true)
    (stop : rest.head?.any test = false) : (front ++ rest).dropWhile test = rest := by
  rw [List.dropWhile_append_of_pos passed]
  cases rest with
  | nil => rfl
  | cons item rest =>
      have fails : test item = false := stop
      simp [fails]

end Runs

/-- A pattern occurs in a text that can be cut around it. -/
theorem occursIn_iff_infix {pattern text : Text} :
    occursIn pattern text = true ↔ pattern <:+: text := by
  induction text with
  | nil => simp [occursIn]
  | cons c rest ih =>
      rw [occursIn, Bool.or_eq_true, ih, List.isPrefixOf_iff_prefix, List.infix_cons_iff]

/-- A text mentions a pattern that is a piece of it. -/
theorem mentions_iff_infix {text : Text} {pattern : String} :
    text.mentions pattern = true ↔ pattern.toList <:+: text :=
  occursIn_iff_infix

/-- What stands on both sides of a cut makes up the text. -/
theorem append_of_mem_cuts {line : Text} {cut : Cut} (member : cut ∈ line.cuts) :
    cut.before.reverse ++ cut.after = line := by
  have within : ∀ (read rest : Text), cut ∈ cutsFrom read rest →
      cut.before.reverse ++ cut.after = read.reverse ++ rest := by
    intro read rest found
    induction rest generalizing read with
    | nil => rw [List.mem_singleton.mp found]
    | cons c rest ih =>
        rw [cutsFrom, List.mem_cons] at found
        rcases found with rfl | later
        · rfl
        · rw [ih (c :: read) later, List.reverse_cons, List.append_assoc, List.singleton_append]
  exact within [] line member

/-- A text has as many bytes from either end. -/
theorem byteSize_reverse (text : Text) : byteSize text.reverse = text.byteSize := by
  induction text with
  | nil => rfl
  | cons c rest ih => rw [List.reverse_cons, byteSize_append, ih, byteSize_cons, byteSize_cons,
      byteSize_nil, Nat.add_zero, Nat.add_comm]

/-- A cut lies within its text. -/
theorem offset_le_of_mem_cuts {line : Text} {cut : Cut} (member : cut ∈ line.cuts) :
    cut.offset ≤ line.byteSize := by
  rw [← append_of_mem_cuts member, byteSize_append, byteSize_reverse]
  exact Nat.le_add_right _ _

/-- Between two parts of a text there is a cut. -/
theorem mem_cuts_append (front back : Text) : ⟨front.reverse, back⟩ ∈ (front ++ back).cuts := by
  have within : ∀ read : Text, ⟨front.reverse ++ read, back⟩ ∈ cutsFrom read (front ++ back) := by
    induction front with
    | nil => cases back <;> simp [cutsFrom]
    | cons c front ih =>
        intro read
        rw [List.cons_append, cutsFrom, List.reverse_cons, List.append_assoc,
          List.singleton_append]
        exact List.mem_cons_of_mem _ (ih (c :: read))
  simpa [cuts] using within []

/-- Cuts come from left to right. -/
theorem pairwise_offset_cuts (line : Text) :
    line.cuts.Pairwise fun first second => first.offset < second.offset := by
  have within : ∀ read : Text, (∀ cut ∈ cutsFrom read line, byteSize read ≤ cut.offset) ∧
      (cutsFrom read line).Pairwise fun first second => first.offset < second.offset := by
    induction line with
    | nil => simp [cutsFrom, Cut.offset]
    | cons c rest ih =>
        intro read
        obtain ⟨later, ordered⟩ := ih (c :: read)
        have further : ∀ cut ∈ cutsFrom (c :: read) rest, byteSize read < cut.offset := by
          intro cut member
          have bound := later cut member
          have positive := c.utf8Size_pos
          rw [byteSize_cons] at bound
          omega
        rw [cutsFrom, List.forall_mem_cons, List.pairwise_cons]
        exact ⟨⟨Nat.le_refl _, fun cut member => Nat.le_of_lt (further cut member)⟩, further, ordered⟩
  exact (within []).2

end PatchLint.Text
