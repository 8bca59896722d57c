import Tandem.Proofs.Store.LastWriter
import Tandem.Proofs.Store.Replay
/-!
# A field is what its highest stamp has made it

Mutations are batches, and batches of different tasks and fields are interleaved in any order.  For one field only its
own changes count, in the order in which they are applied (`changesTo`), and of these only the ones with the highest
stamp (`foldl_writeCell_highest`): what is stamped lower is overtaken or comes too late.  So the cell carries the
highest stamp, and the value of the last change that carried it (`Store.lastWriterWins`).

## The sign of a zero

A change with the stamp of a cell counts only if it changes the value, and `-0` does not change `0`.  So the value may
be that of an earlier change with the same stamp, if it differs in the sign of a zero alone
(`FieldValue.EqualUpToZeros`).  Which of them it is does not depend on the other changes, so that two histories with
the same changes of the same stamps lead to the same cell bit by bit.
-/

namespace Tandem

/-- The same value bit by bit, where numbers may differ in the sign of a zero. -/
def FieldValue.EqualUpToZeros : FieldValue → FieldValue → Prop
  | real x, real y => x.Alike y
  | point a b, point c d => a.Alike c ∧ b.Alike d
  | v, w => v = w

namespace FieldValue

theorem EqualUpToZeros.refl (v : FieldValue) : v.EqualUpToZeros v := by
  cases v with
  | real => exact Or.inl rfl
  | point => exact ⟨Or.inl rfl, Or.inl rfl⟩
  | _ => rfl

/-- Values that count as equal differ in the signs of zeros at most. -/
theorem equalUpToZeros_of_same {v w : FieldValue} (h : v.same w = true) : w.EqualUpToZeros v := by
  have turn : ∀ {x y : Binary64}, x.same y = true → y.Alike x := fun equal =>
    (Binary64.alike_of_same equal).imp Eq.symm And.symm
  cases v <;> cases w <;> simp only [same, decide_eq_true_eq, Bool.and_eq_true, Bool.false_eq_true] at h
  case real.real => exact turn h
  case point.point => exact ⟨turn h.1, turn h.2⟩
  all_goals exact h ▸ rfl

end FieldValue

/-! ## One cell -/

variable {before before' : Option Cell} {changes : List FieldChange} {s : Stamp}

/-- Whether a cell, if there is one, is stamped no higher than a given stamp. -/
def UpTo (cell : Option Cell) (s : Stamp) : Prop := ∀ held, cell = some held → held.stamp ≤ s

/-- The changes with a given stamp. -/
def stampedAs (s : Stamp) (changes : List FieldChange) : List FieldChange := changes.filter (fun c => c.stamp = s)

theorem stampedAs_cons (s : Stamp) (c : FieldChange) (rest : List FieldChange) :
    stampedAs s (c :: rest) = if c.stamp = s then c :: stampedAs s rest else stampedAs s rest := by
  by_cases here : c.stamp = s
  · rw [if_pos here, stampedAs, List.filter_cons_of_pos (by simpa using here)]
    rfl
  · rw [if_neg here, stampedAs, List.filter_cons_of_neg (by simpa using here)]
    rfl

theorem mem_stampedAs {c : FieldChange} : c ∈ stampedAs s changes ↔ c ∈ changes ∧ c.stamp = s := by
  simp [stampedAs]

/-- A change with the stamp of the cell leaves the stamp. -/
theorem exists_writeCell_level (v : FieldValue) (c : FieldChange) :
    ∃ w, writeCell (some ⟨v, c.stamp⟩) c = some ⟨w, c.stamp⟩ ∧ w.EqualUpToZeros c.value := by
  rw [writeCell_level ⟨v, c.stamp⟩ rfl]
  cases equal : c.value.same v with
  | true => exact ⟨v, rfl, FieldValue.equalUpToZeros_of_same equal⟩
  | false => exact ⟨c.value, rfl, .refl _⟩

/-- A cell that carries the highest stamp already minds only the changes that carry it too. -/
theorem foldl_writeCell_level (highest : ∀ c ∈ changes, c.stamp ≤ s) (v : FieldValue) :
    changes.foldl writeCell (some ⟨v, s⟩) = (stampedAs s changes).foldl writeCell (some ⟨v, s⟩) := by
  induction changes generalizing v with
  | nil => rfl
  | cons c rest ih =>
    have later := fun v => ih (fun d mem => highest d (List.mem_cons_of_mem c mem)) v
    rw [stampedAs_cons]
    by_cases here : c.stamp = s
    · subst here
      obtain ⟨w, written, -⟩ := exists_writeCell_level v c
      rw [if_pos rfl, List.foldl_cons, List.foldl_cons, written]
      exact later w
    · have lower : c.stamp < s := Std.lt_of_le_of_ne (highest c List.mem_cons_self) here
      rw [if_neg here, List.foldl_cons, writeCell_below ⟨v, s⟩ lower]
      exact later v

/-- What was in a cell, and what is stamped lower, is forgotten with the first change of the highest stamp. -/
theorem foldl_writeCell_below (below : Below before s) (below' : Below before' s)
    (highest : ∀ c ∈ changes, c.stamp ≤ s) (reached : ∃ c ∈ changes, c.stamp = s) :
    changes.foldl writeCell before = (stampedAs s changes).foldl writeCell before' := by
  induction changes generalizing before with
  | nil =>
    obtain ⟨c, mem, -⟩ := reached
    exact absurd mem List.not_mem_nil
  | cons c rest ih =>
    have later : ∀ d ∈ rest, d.stamp ≤ s := fun d mem => highest d (List.mem_cons_of_mem c mem)
    rw [stampedAs_cons]
    by_cases here : c.stamp = s
    · subst here
      rw [if_pos rfl, List.foldl_cons, List.foldl_cons, writeCell_of_below below, writeCell_of_below below']
      exact foldl_writeCell_level later c.value
    · rw [if_neg here, List.foldl_cons]
      refine ih (below.writeCell (Std.lt_of_le_of_ne (highest c List.mem_cons_self) here)) later ?_
      obtain ⟨d, mem, level⟩ := reached
      rcases List.mem_cons.mp mem with rfl | mem
      · exact absurd level here
      · exact ⟨d, mem, level⟩

/-- **Only the changes with the highest stamp count.** -/
theorem foldl_writeCell_highest (upTo : UpTo before s) (highest : ∀ c ∈ changes, c.stamp ≤ s)
    (reached : ∃ c ∈ changes, c.stamp = s) :
    changes.foldl writeCell before = (stampedAs s changes).foldl writeCell before := by
  by_cases below : Below before s
  · exact foldl_writeCell_below below below highest reached
  · cases before with
    | none => exact absurd nofun below
    | some held =>
      have level : held.stamp = s := by
        refine Std.le_antisymm (upTo held rfl) (Std.not_lt.mp fun lower => below ?_)
        intro other same
        cases same
        exact lower
      subst level
      exact foldl_writeCell_level highest held.value

/-- After changes with one stamp a cell carries it, and the value of the last of them. -/
theorem foldl_writeCell_stamped (upTo : UpTo before s) (level : ∀ c ∈ changes, c.stamp = s) {last : FieldChange}
    (found : changes.getLast? = some last) :
    ∃ v, changes.foldl writeCell before = some ⟨v, s⟩ ∧ v.EqualUpToZeros last.value := by
  obtain ⟨earlier, rfl⟩ := List.getLast?_eq_some_iff.mp found
  have stamp : last.stamp = s := level last (List.mem_append_right _ List.mem_cons_self)
  subst stamp
  rw [List.foldl_append, List.foldl_cons, List.foldl_nil]
  cases held : earlier.foldl writeCell before with
  | none => exact ⟨last.value, rfl, .refl _⟩
  | some cell =>
    -- What the earlier changes have left is stamped no higher.
    have bounded : cell.stamp ≤ last.stamp := by
      rcases foldl_writeCell_origin held with first | ⟨c, mem, rfl⟩
      · exact upTo cell first
      · exact Std.le_of_eq (level c (List.mem_append_left _ mem))
    by_cases same : cell.stamp = last.stamp
    · obtain ⟨v, stamp⟩ := cell
      cases same
      exact exists_writeCell_level v last
    · rw [writeCell_above _ (Std.lt_of_le_of_ne bounded same)]
      exact ⟨last.value, rfl, .refl _⟩

/-- Some change of several carries the highest stamp. -/
theorem exists_highest (some : changes ≠ []) : ∃ c ∈ changes, ∀ d ∈ changes, d.stamp ≤ c.stamp := by
  induction changes with
  | nil => exact absurd rfl some
  | cons c rest ih =>
    by_cases alone : rest = []
    · subst alone
      exact ⟨c, List.mem_cons_self, fun d mem => List.mem_singleton.mp mem ▸ Std.le_refl _⟩
    · obtain ⟨top, mem, highest⟩ := ih alone
      rcases Std.le_total (a := c.stamp) (b := top.stamp) with lower | higher
      · refine ⟨top, List.mem_cons_of_mem c mem, fun d mem => ?_⟩
        rcases List.mem_cons.mp mem with rfl | mem
        · exact lower
        · exact highest d mem
      · refine ⟨c, List.mem_cons_self, fun d mem => ?_⟩
        rcases List.mem_cons.mp mem with rfl | mem
        · exact Std.le_refl _
        · exact Std.le_trans (highest d mem) higher

/-! ## A history of the store -/

/-- The changes of mutations to one field, in the order in which they are applied. -/
def changesTo (mutations : List Mutation) (t : TaskId) (key : FieldKey) : List FieldChange :=
  mutations.flatMap (·.writesAt t key)

theorem Store.cell?_applyAll (store : Store) (mutations : List Mutation) (t : TaskId) (key : FieldKey) :
    ((store.applyAll mutations).1.read t).cell? key =
      (changesTo mutations t key).foldl writeCell ((store.read t).cell? key) := by
  induction mutations generalizing store with
  | nil => rfl
  | cons m rest ih =>
    show (((store.apply m).1.applyAll rest).1.read t).cell? key = _
    rw [ih, cell?_apply, changesTo, changesTo, List.flatMap_cons, List.foldl_append]

theorem Stamp.genesis_le (s : Stamp) : genesis ≤ s := by
  have none : genesis.weight = 0 := by decide
  rw [le_iff, none]
  exact Nat.zero_le _

/-- What is there at the start has the lowest stamp. -/
theorem upTo_initial (t : TaskId) (key : FieldKey) (s : Stamp) : UpTo ((TaskState.initial t).cell? key) s := by
  intro held found
  rw [(TaskState.mem_defaults_of_cell?_initial found).2]
  exact s.genesis_le

namespace Store

@[simp] theorem read_new (capacity : Nat) (t : TaskId) : (new capacity).read t = TaskState.initial t :=
  PerTask.get_ofFn _ t

/-- Two histories with the same changes of every stamp have changes of the same stamps. -/
theorem stamps_of_stampedAs {changes changes' : List FieldChange}
    (same : ∀ s, stampedAs s changes = stampedAs s changes') : ∀ c ∈ changes, c ∈ changes' := by
  intro c mem
  have here : c ∈ stampedAs c.stamp changes := mem_stampedAs.mpr ⟨mem, rfl⟩
  rw [same] at here
  exact (mem_stampedAs.mp here).1

/-- The field of a history depends on its changes with each stamp only. -/
theorem cell?_applyAll_congr (capacity capacity' : Nat) {mutations mutations' : List Mutation} {t : TaskId}
    {key : FieldKey}
    (same : ∀ s, stampedAs s (changesTo mutations t key) = stampedAs s (changesTo mutations' t key)) :
    (((new capacity).applyAll mutations).1.read t).cell? key =
      (((new capacity').applyAll mutations').1.read t).cell? key := by
  rw [cell?_applyAll, cell?_applyAll, read_new, read_new]
  have there := stamps_of_stampedAs same
  have here := stamps_of_stampedAs fun s => (same s).symm
  by_cases none : changesTo mutations t key = []
  · have none' : changesTo mutations' t key = [] := by
      rw [none] at here
      exact List.eq_nil_iff_forall_not_mem.mpr fun c mem => List.not_mem_nil (here c mem)
    rw [none, none']
  · obtain ⟨top, mem, highest⟩ := exists_highest none
    rw [foldl_writeCell_highest (upTo_initial t key top.stamp) highest ⟨top, mem, rfl⟩,
      foldl_writeCell_highest (upTo_initial t key top.stamp) (fun c mem => highest c (here c mem))
        ⟨top, there top mem, rfl⟩, same]

/-- **The last writer wins.**  After any mutations of a fresh store, a field that has been changed carries the highest
stamp of its changes, and the value of the last change with that stamp, up to the sign of a zero.  A field that has not
been changed is as it was at the start.  And any other mutations that make the same changes with each stamp to each
field, in the same order, lead to the same fields bit by bit, whatever is done to the order otherwise. -/
theorem lastWriterWins (capacity : Nat) (mutations : List Mutation) :
    (∀ t key, changesTo mutations t key ≠ [] → ∃ cell last,
      (((new capacity).applyAll mutations).1.read t).cell? key = some cell ∧
        (∀ c ∈ changesTo mutations t key, c.stamp ≤ cell.stamp) ∧
        (stampedAs cell.stamp (changesTo mutations t key)).getLast? = some last ∧
        cell.value.EqualUpToZeros last.value) ∧
    (∀ t key, changesTo mutations t key = [] →
      (((new capacity).applyAll mutations).1.read t).cell? key = (TaskState.initial t).cell? key) ∧
    ∀ mutations' : List Mutation,
      (∀ t key s, stampedAs s (changesTo mutations t key) = stampedAs s (changesTo mutations' t key)) →
        ∀ t, (((new capacity).applyAll mutations).1.read t).fields =
          (((new capacity).applyAll mutations').1.read t).fields := by
  refine ⟨fun t key changed => ?_, fun t key unchanged => ?_, fun mutations' same t => ?_⟩
  · obtain ⟨top, mem, highest⟩ := exists_highest changed
    have upTo := upTo_initial t key top.stamp
    -- The changes with the highest stamp have a last one.
    have here : top ∈ stampedAs top.stamp (changesTo mutations t key) := mem_stampedAs.mpr ⟨mem, rfl⟩
    have found := List.getLast?_eq_some_getLast (List.ne_nil_of_mem here)
    obtain ⟨v, written, value⟩ :=
      foldl_writeCell_stamped upTo (fun c mem => (mem_stampedAs.mp mem).2) found
    refine ⟨⟨v, top.stamp⟩, _, ?_, highest, found, value⟩
    rw [cell?_applyAll, read_new, foldl_writeCell_highest upTo highest ⟨top, mem, rfl⟩, written]
  · rw [cell?_applyAll, read_new, unchanged]
    rfl
  · exact OrderedMap.ext_get? fun key => cell?_applyAll_congr capacity capacity (same t key)

/-- Two scripted writes of one second, the second of which changes the sign of a zero. -/
def zeroHistory : List Mutation :=
  [⟨.tracking, .scenario, [⟨"setcursorx", .real .zero, .scripted ⟨1000⟩⟩]⟩,
    ⟨.tracking, .scenario, [⟨"setcursorx", .real ⟨0x8000000000000000⟩, .scripted ⟨1000⟩⟩]⟩]

/-- The value of a cell need not be that of the last change bit by bit: a change from `0` to `-0` under the same stamp
counts as no change. -/
theorem not_lastValue_zeroHistory : ¬ ∀ capacity mutations t key, changesTo mutations t key ≠ [] → ∃ cell last,
    (((new capacity).applyAll mutations).1.read t).cell? key = some cell ∧
      (∀ c ∈ changesTo mutations t key, c.stamp ≤ cell.stamp) ∧
      (stampedAs cell.stamp (changesTo mutations t key)).getLast? = some last ∧ cell.value = last.value := by
  intro claim
  obtain ⟨cell, last, found, -, latest, value⟩ := claim 0 zeroHistory .tracking "setcursorx" (by decide)
  have held : (((new 0).applyAll zeroHistory).1.read .tracking).cell? "setcursorx" =
      some ⟨.real .zero, .scripted ⟨1000⟩⟩ := by
    decide +kernel
  have lastOne : (stampedAs (.scripted ⟨1000⟩) (changesTo zeroHistory .tracking "setcursorx")).getLast? =
      some ⟨"setcursorx", .real ⟨0x8000000000000000⟩, .scripted ⟨1000⟩⟩ := by
    decide
  cases held.symm.trans found
  cases lastOne.symm.trans latest
  exact absurd value (by decide)

end Store

end Tandem
