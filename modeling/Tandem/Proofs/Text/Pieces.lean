import Tandem.Text.Blank
import Tandem.Text.Pieces
/-!
# Pieces, cuts and trimmed text

Cutting a text at a separator and joining the pieces with it are inverse to each other: the pieces of a text are the
one way to write it as a join of texts without the separator (`pieces_eq_iff`).

A text is trimmed (`Trimmed`) if it has no blank at either end, and not empty.  Trimming leaves such a text as it is
(`trim_eq_self`), and trimmed texts that are joined with a separator make a trimmed text again.
-/

namespace Tandem.Text

/-! ## Pieces -/

theorem not_mem_of_mem_splitOn {separator : Char} {s piece : List Char} (h : piece ∈ s.splitOn separator) :
    separator ∉ piece := by
  induction s generalizing piece with
  | nil =>
    rw [List.splitOn_nil, List.mem_singleton] at h
    exact h ▸ List.not_mem_nil
  | cons c rest ih =>
    rw [List.splitOn_cons_eq_if_modifyHead] at h
    by_cases here : c = separator
    · rw [if_pos (beq_iff_eq.mpr here)] at h
      rcases List.mem_cons.mp h with rfl | later
      · exact List.not_mem_nil
      · exact ih later
    · rw [if_neg (fun same => here (beq_iff_eq.mp same))] at h
      cases pieces : rest.splitOn separator with
      | nil => exact absurd pieces (List.splitOn_ne_nil _ _)
      | cons first others =>
        rw [pieces] at h ih
        rcases List.mem_cons.mp h with rfl | later
        · intro mem
          rcases List.mem_cons.mp mem with same | mem
          · exact here same.symm
          · exact ih List.mem_cons_self mem
        · exact ih (List.mem_cons_of_mem _ later)

/-- **The pieces of a text** are the texts without the separator that it is the join of. -/
theorem pieces_eq_iff {separator : Char} {s : String} {parts : List String} :
    pieces separator s = parts ↔
      parts ≠ [] ∧ (∀ part ∈ parts, separator ∉ part.toList) ∧ s = (String.singleton separator).intercalate parts := by
  constructor
  · rintro rfl
    refine ⟨?_, fun part mem => ?_, ?_⟩
    · exact fun none => List.splitOn_ne_nil _ _ (List.map_eq_nil_iff.mp none)
    · obtain ⟨piece, listed, rfl⟩ := List.mem_map.mp mem
      rw [String.toList_ofList]
      exact not_mem_of_mem_splitOn listed
    · have join : [separator].intercalate (s.toList.splitOn separator) = s.toList := List.intercalate_splitOn separator
      refine String.toList_inj.mp ?_
      rw [String.toList_intercalate, String.toList_singleton, pieces, List.map_map]
      have back : String.toList ∘ String.ofList = id := funext fun _ => String.toList_ofList
      rw [back, List.map_id, join]
  · rintro ⟨some, apart, rfl⟩
    have whole : ∀ piece ∈ parts.map String.toList, separator ∉ piece := by
      intro piece mem
      obtain ⟨part, listed, rfl⟩ := List.mem_map.mp mem
      exact apart part listed
    have split := List.splitOn_intercalate separator whole fun none => some (List.map_eq_nil_iff.mp none)
    have back : String.ofList ∘ String.toList = id := funext fun _ => String.ofList_toList
    rw [pieces, String.toList_intercalate, String.toList_singleton, split, List.map_map, back, List.map_id]

/-! ## Cuts -/

/-- A text without a separator is not cut, and one with a separator is cut at the first one. -/
theorem cut?_cases (separator : Char) (s : String) :
    (separator ∉ s.toList ∧ cut? separator s = none) ∨ ∃ before after : List Char, separator ∉ before ∧
      s = String.ofList (before ++ separator :: after) ∧
      cut? separator s = some (String.ofList before, String.ofList after) := by
  have whole := List.takeWhile_append_dropWhile (p := fun c => decide (c ≠ separator)) (l := s.toList)
  have before : separator ∉ s.toList.takeWhile (fun c => decide (c ≠ separator)) := fun mem => by
    have other := List.all_eq_true.mp List.all_takeWhile separator mem
    exact of_decide_eq_true other rfl
  have head := List.head?_dropWhile_not (fun c => decide (c ≠ separator)) s.toList
  unfold cut?
  cases rest : s.toList.dropWhile (fun c => decide (c ≠ separator)) with
  | nil =>
    rw [rest, List.append_nil] at whole
    exact Or.inl ⟨whole ▸ before, rfl⟩
  | cons c after =>
    rw [rest] at whole head
    obtain rfl : c = separator := by simpa using head
    refine Or.inr ⟨_, after, before, ?_, rfl⟩
    rw [whole, String.ofList_toList]

theorem cut?_append {separator : Char} {before : List Char} (apart : separator ∉ before) (after : List Char) :
    cut? separator (String.ofList (before ++ separator :: after)) =
      some (String.ofList before, String.ofList after) := by
  have all : ∀ c ∈ before, decide (c ≠ separator) = true := fun c mem =>
    decide_eq_true fun same => apart (same ▸ mem)
  unfold cut?
  rw [String.toList_ofList, List.dropWhile_append_of_pos all, List.takeWhile_append_of_pos all]
  simp

/-! ## Trimmed text -/

/-- Characters without a blank at either end, and some. -/
structure Trimmed (s : List Char) : Prop where
  nonempty : s ≠ []
  first : ∀ c, s.head? = some c → isBlank c = false
  last : ∀ c, s.getLast? = some c → isBlank c = false

theorem dropWhile_eq_self {p : Char → Bool} {s : List Char} (first : ∀ c, s.head? = some c → p c = false) :
    s.dropWhile p = s := by
  cases s with
  | nil => rfl
  | cons c rest => exact List.dropWhile_cons_of_neg (by simp [first c rfl])

theorem Trimmed.trimChars_eq_self {s : List Char} (h : Trimmed s) : trimChars s = s := by
  have last : ∀ c, s.reverse.head? = some c → isBlank c = false := fun c found =>
    h.last c (List.head?_reverse.symm.trans found)
  rw [trimChars, dropWhile_eq_self h.first, dropWhile_eq_self last, List.reverse_reverse]

/-- What is left of a text that is not blank throughout is trimmed. -/
theorem trimmed_trimChars {s : List Char} (nonempty : trimChars s ≠ []) : Trimmed (trimChars s) := by
  -- Dropping blanks at the end leaves the front as it is.
  have prefix' : trimChars s <+: s.dropWhile isBlank := by
    have suffix := List.dropWhile_suffix (l := (s.dropWhile isBlank).reverse) isBlank
    exact List.reverse_suffix.mp (by rwa [trimChars, List.reverse_reverse])
  refine ⟨nonempty, fun c found => ?_, fun c found => ?_⟩
  · obtain ⟨dropped, whole⟩ := prefix'
    have head := List.head?_dropWhile_not isBlank s
    rw [← whole, List.head?_append, found] at head
    exact head
  · have head := List.head?_dropWhile_not isBlank (s.dropWhile isBlank).reverse
    rw [trimChars, List.getLast?_reverse] at found
    rw [found] at head
    exact head

namespace Trimmed

variable {s t : List Char}

/-- Trimmed texts that are joined with a separator make a trimmed text. -/
theorem join (h : Trimmed s) (h' : Trimmed t) (separator : Char) : Trimmed (s ++ separator :: t) where
  nonempty := List.append_ne_nil_of_left_ne_nil h.nonempty _
  first c found := by
    cases s with
    | nil => exact absurd rfl h.nonempty
    | cons d rest => exact h.first c found
  last c found := by
    rw [List.getLast?_append, List.getLast?_cons] at found
    cases last : t.getLast? with
    | none => exact absurd (List.getLast?_eq_none_iff.mp last) h'.nonempty
    | some d =>
      rw [last] at found
      exact h'.last c (last.trans found)

theorem intercalate (separator : Char) {parts : List (List Char)} (nonempty : parts ≠ [])
    (trimmed : ∀ part ∈ parts, Trimmed part) : Trimmed ([separator].intercalate parts) := by
  induction parts with
  | nil => exact absurd rfl nonempty
  | cons part rest ih =>
    cases rest with
    | nil => exact List.intercalate_singleton ▸ trimmed part List.mem_cons_self
    | cons next rest =>
      rw [List.intercalate_cons_cons, List.append_assoc]
      exact (trimmed part List.mem_cons_self).join
        (ih (List.cons_ne_nil _ _) fun other mem => trimmed other (List.mem_cons_of_mem _ mem)) separator

end Trimmed

end Tandem.Text
