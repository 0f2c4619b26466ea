import Mathlib.Data.List.Nodup
import Mathlib.Data.Prod.Lex
import PatchLint.Proofs.Text.Bytes
import PatchLint.Proofs.Text.Lines
import PatchLint.Rule.Forbidden

/-!
# The registry is an ordered map

However texts are registered, one by one or several at once, the registry holds each of
them once: in the place of its first registration, with what its last registration says.
`Records` says this of the entries and of the whole history of registrations. One
registration keeps it, so that a history of any length does.

What the rule reports is then one finding for each registered text and each line that
holds it, text by text and line by line.
-/

namespace PatchLint

namespace ForbiddenRegistry

variable {history entries : List ForbiddenText} {entry other : ForbiddenText}

/-- The registered patterns. -/
def patterns (entries : List ForbiddenText) : List String :=
  entries.map ForbiddenText.pattern

/-- The last registration of its pattern. -/
def IsLast (history : List ForbiddenText) (entry : ForbiddenText) : Prop :=
  ∃ before after, history = before ++ entry :: after ∧
    ∀ later ∈ after, later.pattern ≠ entry.pattern

/-- The entries are what is left of a history of registrations: the same patterns, in the
order of their first registrations, with their last ones. -/
structure Records (history entries : List ForbiddenText) : Prop where
  registered : ∀ pattern, pattern ∈ patterns entries ↔ pattern ∈ patterns history
  ordered : (patterns entries).Pairwise fun first second =>
    (patterns history).idxOf first < (patterns history).idxOf second
  last : ∀ entry, entry ∈ entries ↔ IsLast history entry

private theorem Records.nodup (records : Records history entries) : (patterns entries).Nodup := by
  refine records.ordered.imp ?_
  rintro first second before rfl
  exact Nat.lt_irrefl _ before

/-! ## One registration -/

@[simp] private theorem patterns_append (front back : List ForbiddenText) :
    patterns (front ++ back) = patterns front ++ patterns back :=
  List.map_append

private theorem patterns_insertInto (entry : ForbiddenText) (entries : List ForbiddenText) :
    patterns (insertInto entry entries) =
      if entry.pattern ∈ patterns entries then patterns entries
      else patterns entries ++ [entry.pattern] := by
  induction entries with
  | nil => rfl
  | cons existing rest ih =>
      rw [insertInto]
      by_cases same : existing.pattern = entry.pattern
      · simp [patterns, same]
      · rw [if_neg same]
        show existing.pattern :: patterns (insertInto entry rest) = _
        have further : entry.pattern ∈ patterns (existing :: rest) ↔
            entry.pattern ∈ patterns rest := by
          simp [patterns, Ne.symm same]
        rw [ih]
        simp only [further]
        split <;> rfl

/-- Registering replaces the entry with the same pattern and keeps the others. -/
theorem mem_insertInto (nodup : (patterns entries).Nodup) :
    other ∈ insertInto entry entries ↔
      other = entry ∨ other ∈ entries ∧ other.pattern ≠ entry.pattern := by
  induction entries with
  | nil => simp [insertInto]
  | cons existing rest ih =>
      obtain ⟨fresh, nodup⟩ := List.nodup_cons.mp nodup
      rw [insertInto]
      by_cases same : existing.pattern = entry.pattern
      · have apart : other ∈ rest → other.pattern ≠ entry.pattern := by
          intro member equal
          exact fresh (List.mem_map.mpr ⟨other, member, equal.trans same.symm⟩)
        have replaced : other = existing → other.pattern = entry.pattern := fun equal =>
          equal ▸ same
        rw [if_pos same, List.mem_cons, List.mem_cons]
        tauto
      · have kept : other = existing → other.pattern ≠ entry.pattern := fun equal =>
          equal ▸ same
        rw [if_neg same, List.mem_cons, List.mem_cons, ih nodup]
        tauto

/-- After one more registration, that one is the last of its pattern, and the others are as
before. -/
theorem isLast_append_singleton :
    IsLast (history ++ [entry]) other ↔
      other = entry ∨ IsLast history other ∧ other.pattern ≠ entry.pattern := by
  constructor
  · rintro ⟨before, after, split, later⟩
    rcases List.eq_nil_or_concat' after with rfl | ⟨init, latest, rfl⟩
    · obtain ⟨_, same⟩ := List.append_inj' split rfl
      exact .inl (List.singleton_inj.mp same).symm
    · rw [← List.cons_append, ← List.append_assoc] at split
      obtain ⟨rfl, same⟩ := List.append_inj' split rfl
      obtain rfl := List.singleton_inj.mp same
      refine .inr ⟨⟨before, init, rfl, fun entry member => later entry ?_⟩, ?_⟩
      · exact List.mem_append_left _ member
      · exact (later entry (by simp)).symm
  · rintro (rfl | ⟨⟨before, after, rfl, later⟩, different⟩)
    · exact ⟨history, [], rfl, by simp⟩
    · refine ⟨before, after ++ [entry], by simp, ?_⟩
      rw [List.forall_mem_append, List.forall_mem_singleton]
      exact ⟨later, different.symm⟩

private theorem mem_patterns_insertInto {pattern : String} :
    pattern ∈ patterns (insertInto entry entries) ↔
      pattern ∈ patterns entries ∨ pattern = entry.pattern := by
  rw [patterns_insertInto]
  split
  next known => exact ⟨.inl, fun either => either.elim id fun same => same ▸ known⟩
  next => rw [List.mem_append, List.mem_singleton]

/-- A further registration leaves the patterns before it where they are, and a new pattern
comes last. -/
theorem Records.register (records : Records history entries) (entry : ForbiddenText) :
    Records (history ++ [entry]) (insertInto entry entries) := by
  have places {pattern : String} (member : pattern ∈ patterns entries) :
      (patterns (history ++ [entry])).idxOf pattern = (patterns history).idxOf pattern := by
    rw [patterns_append]
    exact List.idxOf_append_of_mem ((records.registered pattern).mp member)
  refine ⟨fun pattern => ?_, ?_, fun other => ?_⟩
  · rw [mem_patterns_insertInto, records.registered, patterns_append, List.mem_append]
    exact or_congr_right List.mem_singleton.symm
  · have ordered : (patterns entries).Pairwise fun first second =>
        (patterns (history ++ [entry])).idxOf first <
          (patterns (history ++ [entry])).idxOf second := by
      refine records.ordered.imp_of_mem fun first second before => ?_
      rw [places first, places second]
      exact before
    rw [patterns_insertInto]
    split
    next => exact ordered
    next fresh =>
      refine List.pairwise_append.mpr ⟨ordered, List.pairwise_singleton _ _, ?_⟩
      intro first member second latest
      obtain rfl := List.mem_singleton.mp latest
      have known := (records.registered first).mp member
      have unknown := mt (records.registered entry.pattern).mpr fresh
      rw [places member, patterns_append, List.idxOf_append_of_notMem unknown]
      exact Nat.lt_add_right _ (List.idxOf_lt_length_of_mem known)
  · rw [mem_insertInto records.nodup, isLast_append_singleton, records.last]

/-! ## Histories of registrations -/

private theorem records_nil : Records [] [] := by
  refine ⟨fun pattern => Iff.rfl, .nil, fun entry => iff_of_false List.not_mem_nil ?_⟩
  rintro ⟨before, after, split, _⟩
  simp at split

private theorem Records.registerAll {registry : ForbiddenRegistry}
    (records : Records history registry.entries) (more : List ForbiddenText) :
    Records (history ++ more) (registry.registerAll more).entries := by
  induction more generalizing history registry with
  | nil => simpa [ForbiddenRegistry.registerAll] using records
  | cons entry more ih =>
      have step : Records (history ++ [entry]) (registry.register entry).entries :=
        records.register entry
      have all := ih step
      rw [List.append_assoc, List.singleton_append] at all
      exact all

/-- A way to change a registry. -/
inductive Call where
  /-- Register a text. -/
  | register (entry : ForbiddenText)
  /-- Register texts one after the other. -/
  | extend (entries : List ForbiddenText)

/-- The texts that are registered by a call. -/
def Call.texts : Call → List ForbiddenText
  | .register entry => [entry]
  | .extend entries => entries

/-- Make a call. -/
def call (registry : ForbiddenRegistry) : Call → ForbiddenRegistry
  | .register entry => registry.register entry
  | .extend entries => registry.registerAll entries

/-- Make calls one after the other. -/
def callAll (registry : ForbiddenRegistry) (calls : List Call) : ForbiddenRegistry :=
  calls.foldl call registry

private theorem call_eq (registry : ForbiddenRegistry) (made : Call) :
    registry.call made = registry.registerAll made.texts := by
  cases made <;> rfl

private theorem callAll_eq (registry : ForbiddenRegistry) (calls : List Call) :
    registry.callAll calls = registry.registerAll (calls.flatMap Call.texts) := by
  induction calls generalizing registry with
  | nil => rfl
  | cons made calls ih =>
      rw [callAll, List.foldl_cons, ← callAll, ih, call_eq, List.flatMap_cons,
        ForbiddenRegistry.registerAll, ForbiddenRegistry.registerAll,
        ForbiddenRegistry.registerAll, List.foldl_append]

/-- The registry with which a project starts: without texts, or with the texts that are
forbidden in every project. -/
def initial (withDefaults : Bool) : ForbiddenRegistry :=
  if withDefaults then defaults else {}

/-- The registrations that are made by calls on an initial registry, with those that had been
made before. -/
def registrations (withDefaults : Bool) (calls : List Call) : List ForbiddenText :=
  (if withDefaults then defaultEntries else []) ++ calls.flatMap Call.texts

/-- Whatever the calls, the registry records all registrations. -/
theorem records_callAll (withDefaults : Bool) (calls : List Call) :
    Records (registrations withDefaults calls) ((initial withDefaults).callAll calls).entries := by
  have start : Records (if withDefaults then defaultEntries else [])
      (initial withDefaults).entries := by
    cases withDefaults with
    | false => exact records_nil
    | true =>
        have empty : Records [] ({} : ForbiddenRegistry).entries := records_nil
        exact empty.registerAll defaultEntries
  rw [callAll_eq]
  exact start.registerAll (calls.flatMap Call.texts)

/-! ## Findings -/

/-- The hits of a registry in a text: each registered text with the number, from zero, of each
line that holds it, text by text and line by line. -/
structure Hits (entries : List ForbiddenText) (content : Text)
    (hits : List (ForbiddenText × Nat)) : Prop where
  mem_iff : ∀ entry number, (entry, number) ∈ hits ↔
    entry ∈ entries ∧ ∃ line, content.lines[number]? = some line ∧ entry.pattern.toList <:+: line
  ordered : hits.Pairwise fun first second =>
    toLex (entries.idxOf first.1, first.2) < toLex (entries.idxOf second.1, second.2)

/-- The finding about a hit. -/
def findingAt (file : SourceFile) (hit : ForbiddenText × Nat) : Issue :=
  ⟨String.ofList file.shownPath, hit.2 + 1, hit.1.severity, hit.1.code, hit.1.description⟩

/-- The hits of one text. -/
def hitsOf (content : Text) (entry : ForbiddenText) : List (ForbiddenText × Nat) :=
  (content.lines.zipIdx.filter fun line => line.1.mentions entry.pattern).map fun line =>
    (entry, line.2)

private theorem mem_hitsOf {content : Text} {hit : ForbiddenText × Nat} :
    hit ∈ hitsOf content entry ↔ hit.1 = entry ∧
      ∃ line, content.lines[hit.2]? = some line ∧ entry.pattern.toList <:+: line := by
  simp only [hitsOf, List.mem_map, List.mem_filter, Prod.exists, List.mk_mem_zipIdx_iff_getElem?,
    Text.mentions_iff_infix]
  constructor
  · rintro ⟨line, number, ⟨stands, holds⟩, rfl⟩
    exact ⟨rfl, line, stands, holds⟩
  · rintro ⟨rfl, line, stands, holds⟩
    exact ⟨line, hit.2, ⟨stands, holds⟩, rfl⟩

private theorem checkEntry_eq (file : SourceFile) (entry : ForbiddenText) :
    checkEntry file entry = (hitsOf file.content entry).map (findingAt file) := by
  have numbered : file.numberedLines =
      file.content.lines.zipIdx.map fun line => (line.1, line.2 + 1) :=
    List.zipIdx_succ
  rw [checkEntry, hitsOf, numbered, List.filter_map, List.map_map, List.map_map]
  refine List.map_congr_left fun line _ => ?_
  simp only [Function.comp_apply, SourceFile.issue, Issue.atLine, findingAt]
  rw [Nat.max_eq_left (Nat.le_add_left 1 line.2)]

private theorem pairwise_hitsOf (content : Text) (entry : ForbiddenText) :
    (hitsOf content entry).Pairwise fun first second =>
      first.1 = second.1 ∧ first.2 < second.2 := by
  have numbers : (content.lines.zipIdx.map Prod.snd).Pairwise (· < ·) := by
    rw [List.zipIdx_map_snd]
    exact List.pairwise_lt_range'
  rw [hitsOf, List.pairwise_map]
  exact ((List.pairwise_map.mp numbers).filter _).imp fun before => ⟨rfl, before⟩

/-- The members of a list without repetitions come in the order of their places. -/
theorem pairwise_idxOf {texts : List ForbiddenText} (nodup : texts.Nodup) :
    texts.Pairwise fun first second => texts.idxOf first < texts.idxOf second := by
  rw [List.pairwise_iff_getElem]
  intro i j hi hj before
  rw [nodup.idxOf_getElem, nodup.idxOf_getElem]
  exact before

/-- A registry without repetitions finds its hits, one by one. -/
theorem exists_hits (nodup : entries.Nodup) (file : SourceFile) :
    ∃ hits, Hits entries file.content hits ∧
      entries.flatMap (checkEntry file) = hits.map (findingAt file) := by
  refine ⟨entries.flatMap (hitsOf file.content), ⟨fun entry number => ?_, ?_⟩, ?_⟩
  · simp only [List.mem_flatMap, mem_hitsOf]
    constructor
    · rintro ⟨_, member, rfl, holds⟩
      exact ⟨member, holds⟩
    · rintro ⟨member, holds⟩
      exact ⟨entry, member, rfl, holds⟩
  · simp only [Prod.Lex.toLex_lt_toLex]
    refine List.pairwise_flatMap.mpr ⟨fun entry _ => ?_, ?_⟩
    · refine (pairwise_hitsOf _ entry).imp fun ⟨same, before⟩ => ?_
      exact .inr ⟨by rw [same], before⟩
    · refine (pairwise_idxOf nodup).imp fun before hit member other otherMember => ?_
      rw [(mem_hitsOf.mp member).1, (mem_hitsOf.mp otherMember).1]
      exact .inl before
  · rw [List.map_flatMap]
    exact List.flatMap_congr fun entry _ => checkEntry_eq file entry

/-- Registration is an ordered map. Whatever is registered, one by one or several at once, on
an empty registry or on the default one: every pattern comes once, in the order of the first
registrations, and an entry is the last registration of its pattern. And in every file the rule
finds one issue for each entry and each line that holds its pattern, entry by entry and line by
line. -/
theorem callAll_orderedMap (withDefaults : Bool) (calls : List Call) :
    let registry := (initial withDefaults).callAll calls
    let history := registrations withDefaults calls
    (patterns registry.entries).Nodup ∧
    (∀ pattern, pattern ∈ patterns registry.entries ↔ pattern ∈ patterns history) ∧
    ((patterns registry.entries).Pairwise fun first second =>
      (patterns history).idxOf first < (patterns history).idxOf second) ∧
    (∀ entry, entry ∈ registry.entries ↔ IsLast history entry) ∧
    ∀ file, ∃ hits, Hits registry.entries file.content hits ∧
      registry.check file = hits.map (findingAt file) := by
  intro registry history
  have records : Records history registry.entries := records_callAll withDefaults calls
  refine ⟨records.nodup, records.registered, records.ordered, records.last, fun file => ?_⟩
  exact exists_hits (records.nodup.of_map _) file

end ForbiddenRegistry
end PatchLint
