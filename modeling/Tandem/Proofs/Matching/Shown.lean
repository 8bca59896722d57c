import Tandem.Proofs.Matching.Rounds
import Tandem.Proofs.Store.LastWriter
/-!
# What the fields show of rounds that have run out

A round that runs out of its time writes its status and takes a penalty off the score, both stamped with its deadline
(`MatchRound.lapse`).  Like every write these take effect unless the cell is stamped above them.

* Commands of the script that are due later do the same to a cell before and after such a write
  (`foldl_writeCell_foldl_lapse`).  So a cell can be thought of as what the script by itself has made of it, followed by
  what the rounds that have run out have made of that, in whatever order it all has happened.
* Of the rounds, only those count whose deadline is not below the stamp of the cell (`foldl_lapse_filter`).
* The score is less by a penalty for each of these, and stamped with the last deadline (`foldl_lapse_score`).
-/

namespace Tandem

theorem Stamp.scripted_lt {a b : SessionTime} : scripted a < scripted b ↔ a < b := by
  show (a < b ∨ a = b ∧ ((0 : UInt32) < 0 ∨ (0 : UInt32) = 0 ∧ 0 < 0)) ↔ a < b
  constructor
  · rintro (lt | ⟨-, none | ⟨-, none⟩⟩)
    · exact lt
    · exact absurd none (by decide)
    · exact absurd none (by decide)
  · exact Or.inl

namespace MatchRound

/-- The stamp of what a round writes when it runs out of its time. -/
def timeout (r : MatchRound) : Stamp := .scripted r.deadline

/-- The score that a cell shows, zero if it shows none. -/
def scoreOf (cell : Option Cell) : Int64 := ((cell.map (·.value)).bind (·.asInt?)).getD 0

/-- What a round that runs out of its time makes of a field of the matching task. -/
def lapse (key : FieldKey) (cell : Option Cell) (r : MatchRound) : Option Cell :=
  if key = "round-status" then writeCell cell ⟨key, .text RoundStatus.expired.label, r.timeout⟩
  else if key = "score" then writeCell cell ⟨key, .int (scoreOf cell - matchTimeoutPenalty), r.timeout⟩
  else cell

theorem lapse_of_not_mem {key : FieldKey} (unlisted : key ∉ Coordinator.outcomeKeys) (cell : Option Cell)
    (r : MatchRound) : r.lapse key cell = cell := by
  obtain ⟨status, score⟩ : key ≠ "round-status" ∧ key ≠ "score" := by
    simpa [Coordinator.outcomeKeys] using unlisted
  rw [lapse, if_neg status, if_neg score]

/-- That is what its changes do. -/
theorem foldl_expiredChanges (r : MatchRound) (s : TaskState) (key : FieldKey) :
    ((Coordinator.expiredChanges r s).filter (fun d => d.key = key)).foldl writeCell (s.cell? key) =
      r.lapse key (s.cell? key) := by
  have other : ("round-status" : FieldKey) ≠ "score" := by decide
  unfold Coordinator.expiredChanges lapse
  by_cases status : key = "round-status"
  · subst status
    simp [other.symm, timeout]
  · by_cases score : key = "score"
    · subst score
      simp [other, timeout, scoreOf, TaskState.int, TaskState.get?]
    · simp [status, score, Ne.symm status, Ne.symm score]

/-- It leaves a field as it is, or writes to it. -/
theorem lapse_cases (key : FieldKey) (cell : Option Cell) (r : MatchRound) :
    r.lapse key cell = cell ∨ ∃ v, r.lapse key cell = writeCell cell ⟨key, v, r.timeout⟩ := by
  unfold lapse
  split
  · exact Or.inr ⟨_, rfl⟩
  · split
    · exact Or.inr ⟨_, rfl⟩
    · exact Or.inl rfl

variable {key : FieldKey} {cell : Option Cell} {held : Cell} {r : MatchRound} {rounds : List MatchRound}

theorem lapse_of_lt (above : r.timeout < held.stamp) : r.lapse key (some held) = some held := by
  rcases lapse_cases key (some held) r with same | ⟨v, written⟩
  · exact same
  · exact written.trans (writeCell_below held above)

/-- A cell is not stamped lower afterwards. -/
theorem exists_lapse (key : FieldKey) (held : Cell) (r : MatchRound) :
    ∃ after, r.lapse key (some held) = some after ∧ held.stamp ≤ after.stamp := by
  rcases lapse_cases key (some held) r with same | ⟨v, written⟩
  · exact ⟨held, same, Std.le_refl _⟩
  · rw [written]
    obtain ⟨after, shown, grown, -⟩ := exists_writeCell held ⟨key, v, r.timeout⟩
    exact ⟨after, shown, grown⟩

/-- A change that is stamped later does the same before and after. -/
theorem writeCell_lapse {c : FieldChange} (late : r.timeout < c.stamp) :
    writeCell (r.lapse key cell) c = r.lapse key (writeCell cell c) := by
  by_cases below : Below cell c.stamp
  · have after : Below (r.lapse key cell) c.stamp := by
      rcases lapse_cases key cell r with same | ⟨v, written⟩
      · rw [same]
        exact below
      · rw [written]
        exact below.writeCell late
    rw [writeCell_of_below below, writeCell_of_below after]
    exact (lapse_of_lt late).symm
  · -- The cell is ahead of both writes.
    obtain ⟨held, rfl, ahead⟩ : ∃ held, cell = some held ∧ c.stamp ≤ held.stamp := by
      simpa [Below, Std.not_lt] using below
    obtain ⟨after, written, grown, -⟩ := exists_writeCell held c
    have reaches := Std.lt_of_lt_of_le late ahead
    rw [lapse_of_lt reaches, written, lapse_of_lt (Std.lt_of_lt_of_le reaches grown)]

theorem writeCell_foldl_lapse {c : FieldChange} (late : ∀ r ∈ rounds, r.timeout < c.stamp) (cell : Option Cell) :
    writeCell (rounds.foldl (lapse key) cell) c = rounds.foldl (lapse key) (writeCell cell c) := by
  induction rounds generalizing cell with
  | nil => rfl
  | cons r rest ih =>
    rw [List.foldl_cons, List.foldl_cons, ih fun r mem => late r (List.mem_cons_of_mem _ mem),
      writeCell_lapse (late r List.mem_cons_self)]

/-- **Later changes do the same before and after any rounds have run out.** -/
theorem foldl_writeCell_foldl_lapse {changes : List FieldChange}
    (late : ∀ r ∈ rounds, ∀ c ∈ changes, r.timeout < c.stamp) (cell : Option Cell) :
    changes.foldl writeCell (rounds.foldl (lapse key) cell) =
      rounds.foldl (lapse key) (changes.foldl writeCell cell) := by
  induction changes generalizing cell with
  | nil => rfl
  | cons c rest ih =>
    have later : ∀ r ∈ rounds, ∀ d ∈ rest, r.timeout < d.stamp :=
      fun r mem d mem' => late r mem d (List.mem_cons_of_mem c mem')
    rw [List.foldl_cons, List.foldl_cons, writeCell_foldl_lapse fun r mem => late r mem c List.mem_cons_self, ih later]

/-- Rounds whose deadline is below the stamp of a cell do not count. -/
theorem foldl_lapse_filter {p : MatchRound → Bool} {held : Cell}
    (below : ∀ r ∈ rounds, p r = false → r.timeout < held.stamp) :
    rounds.foldl (lapse key) (some held) = (rounds.filter p).foldl (lapse key) (some held) := by
  induction rounds generalizing held with
  | nil => rfl
  | cons r rest ih =>
    cases counts : p r with
    | true =>
      obtain ⟨after, lapsed, grown⟩ := exists_lapse key held r
      have later : ∀ x ∈ rest, p x = false → x.timeout < after.stamp := fun x mem out =>
        Std.lt_of_lt_of_le (below x (List.mem_cons_of_mem r mem) out) grown
      rw [List.filter_cons_of_pos counts, List.foldl_cons, List.foldl_cons, lapsed, ih later]
    | false =>
      have unchanged : r.lapse key (some held) = some held := lapse_of_lt (below r List.mem_cons_self counts)
      rw [List.filter_cons_of_neg (by simp [counts]), List.foldl_cons, unchanged]
      exact ih fun r mem => below r (List.mem_cons_of_mem _ mem)

/-! ## The score -/

/-- The rounds that have run out at a stamp or later. -/
def countedRounds (since : Stamp) (ranOut : List MatchRound) : List MatchRound :=
  ranOut.filter (fun r => since ≤ r.timeout)

theorem foldl_lapse_counted (key : FieldKey) (held : Cell) (rounds : List MatchRound) :
    rounds.foldl (lapse key) (some held) = (countedRounds held.stamp rounds).foldl (lapse key) (some held) :=
  foldl_lapse_filter fun _ _ out => Std.not_le.mp (of_decide_eq_false out)

/-- What the rounds that have run out since a stamp cost. -/
def penalties (since : Stamp) (ranOut : List MatchRound) : Int64 :=
  Int64.ofNat (countedRounds since ranOut).length * matchTimeoutPenalty

/-- The deadline at which the last of them has run out, the stamp itself if there is none. -/
def lastCharge (since : Stamp) (ranOut : List MatchRound) : Stamp :=
  ((countedRounds since ranOut).getLast?.map timeout).getD since

/-- Two lists of rounds that have run out cost the same, and the last of them at the same time. -/
structure SameCharge (since : Stamp) (ranOut ranOut' : List MatchRound) : Prop where
  penalties : penalties since ranOut = penalties since ranOut'
  lastCharge : lastCharge since ranOut = lastCharge since ranOut'

instance (since : Stamp) (ranOut ranOut' : List MatchRound) : Decidable (SameCharge since ranOut ranOut') :=
  decidable_of_iff (MatchRound.penalties since ranOut = MatchRound.penalties since ranOut' ∧
    MatchRound.lastCharge since ranOut = MatchRound.lastCharge since ranOut')
    ⟨fun h => ⟨h.1, h.2⟩, fun h => ⟨h.penalties, h.lastCharge⟩⟩

end MatchRound

theorem writeCell_int (total score : Int64) {held stamp : Stamp} (key : FieldKey) (upTo : held ≤ stamp) :
    writeCell (some ⟨.int total, held⟩) ⟨key, .int score, stamp⟩ = some ⟨.int score, stamp⟩ := by
  by_cases level : held = stamp
  · subst level
    rw [writeCell_level _ rfl]
    by_cases same : score = total <;> simp [FieldValue.same, same]
  · exact writeCell_above _ (Std.lt_of_le_of_ne upTo level)

namespace MatchRound

/-- Every round of a list that starts at a stamp takes its penalty. -/
theorem foldl_lapse_score_all {rounds : List MatchRound} (order : rounds.Pairwise (·.timeout < ·.timeout))
    {since : Stamp} (upTo : ∀ r ∈ rounds, since ≤ r.timeout) (total : Int64) :
    rounds.foldl (lapse "score") (some ⟨.int total, since⟩) =
      some ⟨.int (total - Int64.ofNat rounds.length * matchTimeoutPenalty),
        (rounds.getLast?.map timeout).getD since⟩ := by
  induction order generalizing since total with
  | nil =>
    have free : total - Int64.ofNat 0 * matchTimeoutPenalty = total := by
      show total - 0 * matchTimeoutPenalty = total
      grind
    exact congrArg (fun score => some (Cell.mk (.int score) since)) free.symm
  | @cons r rest later _ ih =>
    have charged : r.lapse "score" (some ⟨.int total, since⟩) =
        some ⟨.int (total - matchTimeoutPenalty), r.timeout⟩ :=
      writeCell_int _ _ _ (upTo r List.mem_cons_self)
    have sum : total - matchTimeoutPenalty - Int64.ofNat rest.length * matchTimeoutPenalty =
        total - Int64.ofNat (r :: rest).length * matchTimeoutPenalty := by
      rw [List.length_cons, Int64.ofNat_add]
      show _ = total - (_ + 1) * matchTimeoutPenalty
      grind
    rw [List.foldl_cons, charged, ih fun x mem => Std.le_of_lt (later x mem), sum, List.getLast?_cons]
    cases rest.getLast? <;> rfl

/-- **The score after rounds have run out**, given the order of their deadlines. -/
theorem foldl_lapse_score {rounds : List MatchRound} (order : rounds.Pairwise (·.timeout < ·.timeout))
    (total : Int64) (since : Stamp) : rounds.foldl (lapse "score") (some ⟨.int total, since⟩) =
      some ⟨.int (total - penalties since rounds), lastCharge since rounds⟩ := by
  rw [foldl_lapse_counted]
  exact foldl_lapse_score_all (order.filter _) (fun r mem => of_decide_eq_true (List.mem_filter.mp mem).2) total

/-- Rounds that have run out leave the same score exactly if they cost the same. -/
theorem foldl_lapse_score_eq_iff {rounds rounds' : List MatchRound}
    (order : rounds.Pairwise (·.timeout < ·.timeout)) (order' : rounds'.Pairwise (·.timeout < ·.timeout))
    (total : Int64) (since : Stamp) : rounds.foldl (lapse "score") (some ⟨.int total, since⟩) =
      rounds'.foldl (lapse "score") (some ⟨.int total, since⟩) ↔ SameCharge since rounds rounds' := by
  rw [foldl_lapse_score order, foldl_lapse_score order', Option.some.injEq, Cell.mk.injEq, FieldValue.int.injEq]
  constructor
  · rintro ⟨score, stamp⟩
    exact ⟨by grind, stamp⟩
  · rintro ⟨cost, stamp⟩
    exact ⟨by rw [cost], stamp⟩

end MatchRound

end Tandem
