import Tandem.Proofs.Store.Cells
/-!
# The newest write of a cell

A field is written by the script and by the inputs of two participants, and the two peers see these writes in
different orders.  `Newest` says what a cell holds when some of the writes have arrived: what the script has left
there, or the input write with the highest stamp.  This does not depend on the order (`Newest.agree`).

Between a forwarded input and the delta that follows it, a peer shows what the input came to on its own state.
`Explains` allows for that: the cell is settled, or it is ahead of the delta that is awaited.  The lemmas on
`Explains` say that each thing that can happen to a cell keeps it explained: a scripted write, an own input, a
forwarded input, its delta, and a delta that comes once more.

## Up to the sign of a zero

A write with the stamp of a cell counts only if it changes the value, and `-0` does not change `0`.  So the delta of
a cursor displacement does not always replace what the forwarded displacement has left.  Values are therefore
compared up to the sign of a zero coordinate, `FieldValue.Alike`; all other values are compared bit by bit.
-/

namespace Tandem

/-! ## Equal up to the sign of a zero -/

/-- The same number bit by bit, or two zeros. -/
def Binary64.Alike (x y : Binary64) : Prop := x = y ∨ (x.magnitude = 0 ∧ y.magnitude = 0)

/-- Numbers that are equal by value are the same or two zeros. -/
theorem Binary64.alike_of_same {x y : Binary64} (h : x.same y = true) : x.Alike y := by
  have below := x.bits.toNat_lt
  have below' := y.bits.toNat_lt
  simp only [same, rank, isNegative, Bool.and_eq_true, decide_eq_true_eq] at h
  by_cases zeros : x.magnitude = 0 ∧ y.magnitude = 0
  · exact Or.inr zeros
  · refine Or.inl ?_
    obtain ⟨⟨-, -⟩, ranks⟩ := h
    have bits : x.bits.toNat = y.bits.toNat := by
      simp only [magnitude, signPlace] at zeros ranks
      by_cases negative : 0x8000000000000000 ≤ x.bits.toNat <;>
        by_cases negative' : 0x8000000000000000 ≤ y.bits.toNat <;>
        simp only [negative, negative', if_true, if_false] at ranks <;> omega
    obtain ⟨x⟩ := x
    obtain ⟨y⟩ := y
    exact congrArg Binary64.mk (UInt64.toNat_inj.mp bits)

namespace FieldValue

/-- The same value bit by bit, where the coordinates of a point may differ in the sign of a zero. -/
def Alike : FieldValue → FieldValue → Prop
  | point a b, point c d => a.Alike c ∧ b.Alike d
  | v, w => v = w

theorem Alike.refl (v : FieldValue) : v.Alike v := by
  cases v with
  | point => exact ⟨Or.inl rfl, Or.inl rfl⟩
  | _ => rfl

theorem Alike.asInt?_eq {v w : FieldValue} (h : v.Alike w) : v.asInt? = w.asInt? := by
  cases v <;> cases w <;> first | exact congrArg asInt? h | rfl

theorem Alike.symm {v w : FieldValue} (h : v.Alike w) : w.Alike v := by
  cases v <;> cases w <;> try exact Eq.symm h
  exact ⟨h.1.imp Eq.symm And.symm, h.2.imp Eq.symm And.symm⟩

theorem Alike.trans {u v w : FieldValue} (first : u.Alike v) (second : v.Alike w) : u.Alike w := by
  cases u <;> cases v <;> cases w <;> simp only [Alike, reduceCtorEq] at first second ⊢ <;> try grind
  simp only [Binary64.Alike] at first second ⊢
  grind

/-- The relation of what a forwarded input comes to on a peer with what it came to where it was made: a value of
the same type and, if it is a number, the same number. -/
def Rerun (v w : FieldValue) : Prop := v.sameType w = true ∧ ∀ x, w = real x → v = w

theorem Rerun.alike_of_same {v w : FieldValue} (rerun : v.Rerun w) (h : w.same v = true) : v.Alike w := by
  cases w with
  | real x => exact rerun.2 x rfl ▸ Alike.refl _
  | point c d =>
    cases v with
    | point a b =>
      rw [same, Bool.and_eq_true] at h
      exact Alike.symm (v := point c d) ⟨Binary64.alike_of_same h.1, Binary64.alike_of_same h.2⟩
    | _ => exact absurd rerun.1 Bool.false_ne_true
  | _ =>
    cases v <;> simp only [same, decide_eq_true_eq, Bool.false_eq_true] at h
    exact h ▸ Alike.refl _

end FieldValue

/-- Two cells with one stamp and with values that are alike. -/
def Cell.Alike (a b : Cell) : Prop := a.stamp = b.stamp ∧ a.value.Alike b.value

/-! ## Cells below a stamp -/

/-- Whether a cell, if there is one, is stamped below a given stamp. -/
def Below (cell : Option Cell) (s : Stamp) : Prop := ∀ held, cell = some held → held.stamp < s

variable {cell scripted : Option Cell} {c p : FieldChange} {s : Stamp}

theorem writeCell_of_below (h : Below cell c.stamp) : writeCell cell c = some ⟨c.value, c.stamp⟩ := by
  cases cell with
  | none => rfl
  | some held => exact writeCell_above _ (h held rfl)

theorem Below.writeCell (h : Below cell s) (lower : c.stamp < s) : Below (writeCell cell c) s := by
  intro held found
  unfold Tandem.writeCell at found
  split at found
  · cases found
    exact lower
  · exact h held found

/-- After a change a cell is stamped neither lower than it was nor below the change. -/
theorem exists_writeCell (held : Cell) (c : FieldChange) :
    ∃ after, writeCell (some held) c = some after ∧ held.stamp ≤ after.stamp ∧ c.stamp ≤ after.stamp := by
  rcases Std.lt_trichotomy held.stamp c.stamp with above | level | below
  · exact ⟨_, writeCell_above _ above, Std.le_of_lt above, Std.le_refl _⟩
  · rw [writeCell_level _ level.symm]
    split
    · exact ⟨held, rfl, Std.le_refl _, Std.le_of_eq level.symm⟩
    · exact ⟨_, rfl, Std.le_of_eq level, Std.le_refl _⟩
  · exact ⟨held, writeCell_below _ below, Std.le_refl _, Std.le_of_lt below⟩

theorem exists_foldl_writeCell (held : Cell) (changes : List FieldChange) :
    ∃ after, changes.foldl writeCell (some held) = some after ∧ held.stamp ≤ after.stamp ∧
      ∀ c ∈ changes, c.stamp ≤ after.stamp := by
  induction changes generalizing held with
  | nil => exact ⟨held, rfl, Std.le_refl _, fun c mem => absurd mem List.not_mem_nil⟩
  | cons c rest ih =>
    obtain ⟨first, written, grown, reaches⟩ := exists_writeCell held c
    obtain ⟨after, writtenAll, grownAll, reachesAll⟩ := ih first
    rw [List.foldl_cons, written]
    refine ⟨after, writtenAll, Std.le_trans grown grownAll, fun d mem => ?_⟩
    rcases List.mem_cons.mp mem with rfl | later
    · exact Std.le_trans reaches grownAll
    · exact reachesAll d later

/-! ## What a cell holds -/

/-- What a cell holds when the script has left `scripted` and the inputs have made the writes `writes`. -/
inductive Newest (scripted : Option Cell) (writes : FieldChange → Prop) : Option Cell → Prop where
  /-- The script has the highest stamp, or nothing has been written. -/
  | script (above : ∀ w, writes w → ∃ held, scripted = some held ∧ w.stamp < held.stamp) :
      Newest scripted writes scripted
  /-- An input has the highest stamp. -/
  | input {w : FieldChange} {v : FieldValue} (made : writes w) (alike : v.Alike w.value)
      (script : Below scripted w.stamp) (latest : ∀ u, writes u → u.stamp ≤ w.stamp) :
      Newest scripted writes (some ⟨v, w.stamp⟩)

/-- What a cell may hold when, besides, an input has been forwarded whose write `awaited` is still to come. -/
inductive Explains (scripted : Option Cell) (writes : FieldChange → Prop) (awaited : Option FieldChange) :
    Option Cell → Prop where
  /-- The forwarded input has left no trace. -/
  | settled {cell : Option Cell} (newest : Newest scripted writes cell) : Explains scripted writes awaited cell
  /-- The cell shows what the forwarded input has come to here. -/
  | ahead {p : FieldChange} {v : FieldValue} (awaits : awaited = some p) (rerun : v.Rerun p.value)
      (script : Below scripted p.stamp) (latest : ∀ u, writes u → u.stamp < p.stamp) :
      Explains scripted writes awaited (some ⟨v, p.stamp⟩)

variable {writes : FieldChange → Prop} {awaited : Option FieldChange}

theorem Newest.congr {writes' : FieldChange → Prop} (h : Newest scripted writes cell)
    (same : ∀ w, writes w ↔ writes' w) : Newest scripted writes' cell := by
  have eq : writes = writes' := funext fun w => propext (same w)
  exact eq ▸ h

theorem Explains.congr {writes' : FieldChange → Prop} (h : Explains scripted writes awaited cell)
    (same : ∀ w, writes w ↔ writes' w) : Explains scripted writes' awaited cell := by
  have eq : writes = writes' := funext fun w => propext (same w)
  exact eq ▸ h

/-- Nothing is awaited in a settled cell, whatever is said to be. -/
theorem Explains.newest (h : Explains scripted writes none cell) : Newest scripted writes cell := by
  cases h with
  | settled newest => exact newest
  | ahead awaits => cases awaits

/-- A scripted write, made both to the cell and to what the script has left. -/
theorem Explains.script (h : Explains scripted writes awaited cell) {c : FieldChange}
    (apart : ∀ w, writes w ∨ awaited = some w → c.stamp ≠ w.stamp) :
    Explains (writeCell scripted c) writes awaited (writeCell cell c) := by
  cases h with
  | settled newest =>
    refine .settled ?_
    cases newest with
    | script above =>
      refine .script fun w made => ?_
      obtain ⟨held, rfl, lower⟩ := above w made
      obtain ⟨after, written, upTo, -⟩ := exists_writeCell held c
      exact ⟨after, written, Std.lt_of_lt_of_le lower upTo⟩
    | @input w v made alike script latest =>
      rcases Std.lt_trichotomy c.stamp w.stamp with lower | level | higher
      · rw [writeCell_below ⟨v, w.stamp⟩ lower]
        exact .input made alike (script.writeCell lower) latest
      · exact absurd level (apart w (Or.inl made))
      · -- The script overtakes the inputs.
        have above : Below scripted c.stamp := fun held found => Std.lt_trans (script held found) higher
        rw [writeCell_above ⟨v, w.stamp⟩ higher, writeCell_of_below above]
        exact .script fun u made => ⟨_, rfl, Std.lt_of_le_of_lt (latest u made) higher⟩
  | @ahead p v awaits rerun script latest =>
    rcases Std.lt_trichotomy c.stamp p.stamp with lower | level | higher
    · rw [writeCell_below ⟨v, p.stamp⟩ lower]
      exact .ahead awaits rerun (script.writeCell lower) latest
    · exact absurd level (apart p (Or.inr awaits))
    · have above : Below scripted c.stamp := fun held found => Std.lt_trans (script held found) higher
      rw [writeCell_above ⟨v, p.stamp⟩ higher, writeCell_of_below above]
      exact .settled (.script fun u made => ⟨_, rfl, Std.lt_trans (latest u made) higher⟩)

/-- Scripted writes, made both to the cell and to what the script has left. -/
theorem Explains.scripts (h : Explains scripted writes awaited cell) {changes : List FieldChange}
    (apart : ∀ c ∈ changes, ∀ w, writes w ∨ awaited = some w → c.stamp ≠ w.stamp) :
    Explains (changes.foldl writeCell scripted) writes awaited (changes.foldl writeCell cell) := by
  induction changes generalizing scripted cell with
  | nil => exact h
  | cons c rest ih =>
    exact ih (h.script (apart c List.mem_cons_self)) fun d mem => apart d (List.mem_cons_of_mem c mem)

/-- What is above a cell is above everything that explains it. -/
theorem Explains.below (h : Explains scripted writes awaited cell) (above : Below cell s) :
    Below scripted s ∧ ∀ w, writes w → w.stamp < s := by
  cases h with
  | settled newest =>
    cases newest with
    | script made =>
      refine ⟨above, fun w written => ?_⟩
      obtain ⟨held, found, lower⟩ := made w written
      exact Std.lt_trans lower (above held found)
    | input _ _ script latest =>
      have lower := above _ rfl
      exact ⟨fun held found => Std.lt_trans (script held found) lower,
        fun u written => Std.lt_of_le_of_lt (latest u written) lower⟩
  | ahead _ _ script latest =>
    have lower := above _ rfl
    exact ⟨fun held found => Std.lt_trans (script held found) lower,
      fun u written => Std.lt_trans (latest u written) lower⟩

/-- An own input, stamped above everything. -/
theorem Newest.own {c : FieldChange} (here : Below cell c.stamp) (script : Below scripted c.stamp)
    (latest : ∀ w, writes w → w.stamp < c.stamp) :
    Newest scripted (fun w => writes w ∨ w = c) (writeCell cell c) := by
  rw [writeCell_of_below here]
  refine .input (Or.inr rfl) (.refl _) script fun u made => ?_
  rcases made with made | rfl
  · exact Std.le_of_lt (latest u made)
  · exact Std.le_refl _

/-- A forwarded input whose delta, with the write `p`, is to come. -/
theorem Explains.forward (h : Explains scripted writes none cell) {c p : FieldChange} (stamps : c.stamp = p.stamp)
    (rerun : c.value.Rerun p.value) (script : ∀ held, scripted = some held → held.stamp ≠ p.stamp)
    (apart : ∀ w, writes w → w.stamp ≠ p.stamp) :
    Explains scripted writes (some p) (writeCell cell c) := by
  have ahead : Below scripted p.stamp → (∀ w, writes w → w.stamp < p.stamp) →
      Explains scripted writes (some p) (some ⟨c.value, c.stamp⟩) := fun script latest =>
    stamps ▸ .ahead rfl rerun script latest
  have newest := h.newest
  cases newest with
  | script above =>
    cases cell with
    | none => exact ahead nofun fun w made => nomatch (above w made).choose_spec.1
    | some held =>
      rcases Std.lt_trichotomy held.stamp c.stamp with lower | level | higher
      · rw [writeCell_above _ lower]
        refine ahead (fun _ found => Option.some.inj found ▸ stamps ▸ lower) fun w made => ?_
        obtain ⟨_, found, below⟩ := above w made
        cases found
        exact Std.lt_trans below (stamps ▸ lower)
      · exact absurd (level.trans stamps) (script held rfl)
      · rw [writeCell_below _ higher]
        exact .settled (.script above)
  | @input w v made alike below latest =>
    rcases Std.lt_trichotomy w.stamp c.stamp with lower | level | higher
    · rw [writeCell_above ⟨v, w.stamp⟩ lower]
      refine ahead (fun held found => Std.lt_trans (below held found) (stamps ▸ lower)) fun u made => ?_
      exact Std.lt_of_le_of_lt (latest u made) (stamps ▸ lower)
    · exact absurd (level.trans stamps) (apart w made)
    · rw [writeCell_below ⟨v, w.stamp⟩ higher]
      exact .settled (.input made alike below latest)

/-- The delta that is awaited. -/
theorem Explains.delta (h : Explains scripted writes (some p) cell)
    (script : ∀ held, scripted = some held → held.stamp ≠ p.stamp) (apart : ∀ w, writes w → w.stamp ≠ p.stamp) :
    Newest scripted (fun w => writes w ∨ w = p) (writeCell cell p) := by
  cases h with
  | settled newest =>
    cases newest with
    | script above =>
      cases cell with
      | none => exact .own nofun nofun fun w made => nomatch (above w made).choose_spec.1
      | some held =>
        rcases Std.lt_trichotomy held.stamp p.stamp with lower | level | higher
        · have below : Below (some held) p.stamp := fun _ found => Option.some.inj found ▸ lower
          refine .own below below fun w made => ?_
          obtain ⟨_, found, lower'⟩ := above w made
          cases found
          exact Std.lt_trans lower' lower
        · exact absurd level (script held rfl)
        · rw [writeCell_below _ higher]
          refine .script fun w made => ?_
          rcases made with made | rfl
          · exact above w made
          · exact ⟨held, rfl, higher⟩
    | @input w v made alike below latest =>
      rcases Std.lt_trichotomy w.stamp p.stamp with lower | level | higher
      · refine .own (fun _ found => Option.some.inj found ▸ lower)
          (fun held found => Std.lt_trans (below held found) lower) fun u made => ?_
        exact Std.lt_of_le_of_lt (latest u made) lower
      · exact absurd level (apart w made)
      · rw [writeCell_below ⟨v, w.stamp⟩ higher]
        refine .input (Or.inl made) alike below fun u made => ?_
        rcases made with made | rfl
        · exact latest u made
        · exact Std.le_of_lt higher
  | @ahead q v awaits rerun below latest =>
    cases awaits
    have top : ∀ u, writes u ∨ u = p → u.stamp ≤ p.stamp := fun u made =>
      made.elim (fun made => Std.le_of_lt (latest u made)) (fun eq => eq ▸ Std.le_refl _)
    rw [writeCell_level ⟨v, p.stamp⟩ rfl]
    cases equal : p.value.same v with
    | true => exact .input (Or.inr rfl) (rerun.alike_of_same equal) below top
    | false => exact .input (Or.inr rfl) (.refl _) below top

/-- A delta that comes once more. -/
theorem Explains.again (h : Explains scripted writes awaited cell) {w : FieldChange} (made : writes w)
    (unique : ∀ u, writes u → u.stamp = w.stamp → u = w) : Explains scripted writes awaited (writeCell cell w) := by
  cases h with
  | settled newest =>
    cases newest with
    | script above =>
      obtain ⟨held, rfl, lower⟩ := above w made
      rw [writeCell_below _ lower]
      exact .settled (.script above)
    | @input u v made' alike below latest =>
      rcases Std.lt_trichotomy w.stamp u.stamp with lower | level | higher
      · rw [writeCell_below ⟨v, u.stamp⟩ lower]
        exact .settled (.input made' alike below latest)
      · cases unique u made' level.symm
        rw [writeCell_level ⟨v, w.stamp⟩ rfl]
        cases w.value.same v with
        | true => exact .settled (.input made alike below latest)
        | false => exact .settled (.input made (.refl _) below latest)
      · exact absurd higher (Std.not_lt_of_ge (latest w made))
  | @ahead p v awaits rerun below latest =>
    rw [writeCell_below ⟨v, p.stamp⟩ (latest w made)]
    exact .ahead awaits rerun below latest

/-- **What the newest write is does not depend on the order of the writes.** -/
theorem Newest.agree {a b : Option Cell} (first : Newest scripted writes a) (second : Newest scripted writes b)
    (unique : ∀ u w, writes u → writes w → u.stamp = w.stamp → u = w) : Option.Rel Cell.Alike a b := by
  cases first with
  | script above =>
    cases second with
    | script => 
      cases scripted with
      | none => exact .none
      | some held => exact .some ⟨rfl, .refl _⟩
    | @input w v made _ below =>
      obtain ⟨held, found, lower⟩ := above w made
      exact absurd (Std.lt_trans lower (below held found)) Std.lt_irrefl
  | @input u v made alike below latest =>
    cases second with
    | script above =>
      obtain ⟨held, found, lower⟩ := above u made
      exact absurd (Std.lt_trans lower (below held found)) Std.lt_irrefl
    | @input w v' made' alike' _ latest' =>
      have level := Std.le_antisymm (latest' u made) (latest w made')
      cases unique u w made made' level
      exact .some ⟨rfl, alike.trans alike'.symm⟩

end Tandem
