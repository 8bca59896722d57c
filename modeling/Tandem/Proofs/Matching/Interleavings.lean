import Tandem.Proofs.Matching.Entries
import Tandem.Proofs.Session.Stamps
/-!
# The order of selections

The two participants select on their own, and the two peers see their selections in different orders: each
participant's in the order in which they were made, but the two of them interleaved in one way here and in another way
there.  An attempt to select may be void, or too early or too late, or the second one in a round, and by then the round
may be over.  None of this makes a difference (`Coordinator.attempts_agree`).

An attempt is taken if the round offers to (`Coordinator.offer?`), which depends on the other participant in one way
only: there is no offer once both have satisfied the round.  So two attempts of different participants may be exchanged
(`Coordinator.attempts_swap`), and an interleaving is as good as one participant's attempts before the other's.
-/

namespace Tandem

theorem Stamp.highest_comm (a b : Stamp) : a.highest b = b.highest a := by
  unfold highest
  by_cases up : a ≤ b
  · by_cases down : b ≤ a
    · rw [if_pos up, if_pos down, Std.le_antisymm up down]
    · rw [if_pos up, if_neg down]
  · rw [if_neg up, if_pos (Std.le_of_not_ge up)]

/-- A round in which two participants have selected, and nobody else, was completed by the later of their
selections. -/
theorem MatchRound.resolvedAt_eq_highest {r : MatchRound} {p q : ParticipantId} {s t : Selection} (apart : p ≠ q)
    (left : r.selections.get? p = some s) (right : r.selections.get? q = some t)
    (only : ∀ o, r.selections.get? o ≠ none → o = p ∨ o = q) : r.resolvedAt = s.stamp.highest t.stamp := by
  have both : r.selections = (OrderedMap.empty.insert p s).insert q t := by
    refine OrderedMap.ext_get? fun o => ?_
    rw [OrderedMap.get?_insert, OrderedMap.get?_insert, OrderedMap.get?_empty]
    by_cases atRight : q = o
    · rw [if_pos atRight, ← atRight, right]
    · rw [if_neg atRight]
      by_cases atLeft : p = o
      · rw [if_pos atLeft, ← atLeft, left]
      · rw [if_neg atLeft]
        refine Decidable.byContradiction fun held => ?_
        rcases only o held with same | same
        · exact atLeft same.symm
        · exact atRight same.symm
  have entries : r.selections.values = ((OrderedMap.insertEntry q t [(p, s)]).map Prod.snd) := by
    rw [both]
    rfl
  rw [resolvedAt, latestSelection, entries, OrderedMap.insertEntry]
  by_cases below : q < p
  · rw [if_pos below]
    exact t.stamp.highest_comm s.stamp
  · rw [if_neg below]
    by_cases above : p < q
    · rw [if_pos above]
      rfl
    · exact absurd (Std.le_antisymm (Std.not_lt.mp below) (Std.not_lt.mp above)) apart

/-- A list is made of two lists whose elements keep their order. -/
inductive Interleaves {α : Type} : List α → List α → List α → Prop where
  | nil : Interleaves [] [] []
  | left {xs ys l : List α} (x : α) : Interleaves xs ys l → Interleaves (x :: xs) ys (x :: l)
  | right {xs ys l : List α} (y : α) : Interleaves xs ys l → Interleaves xs (y :: ys) (y :: l)

theorem Interleaves.forall_mem {α : Type} {P : α → Prop} {xs ys l : List α} (h : Interleaves xs ys l)
    (left : ∀ x ∈ xs, P x) (right : ∀ y ∈ ys, P y) : ∀ a ∈ l, P a := by
  induction h with
  | nil => exact left
  | left x _ ih =>
    obtain ⟨own, rest⟩ := List.forall_mem_cons.mp left
    exact List.forall_mem_cons.mpr ⟨own, ih rest right⟩
  | right y _ ih =>
    obtain ⟨own, rest⟩ := List.forall_mem_cons.mp right
    exact List.forall_mem_cons.mpr ⟨own, ih left rest⟩

/-- An attempt of a participant to select an object. -/
structure Attempt where
  participant : ParticipantId
  object : ObjectId
  stamp : Stamp
deriving DecidableEq

namespace Coordinator

/-- The coordinator after an attempt, and the changes that show what has come of it. -/
def attempt (c : Coordinator) (a : Attempt) : Coordinator × List FieldChange :=
  let out := c.select a.participant a.object a.stamp
  (out.1, out.2.toOption.getD [])

/-- The coordinator after several attempts, and all changes. -/
def attempts (c : Coordinator) : List Attempt → Coordinator × List FieldChange
  | [] => (c, [])
  | a :: rest => (((c.attempt a).1.attempts rest).1, (c.attempt a).2 ++ ((c.attempt a).1.attempts rest).2)

/-- The round that takes an attempt, and the selection that it takes. -/
def offer? (c : Coordinator) (a : Attempt) : Option (MatchRound × Selection) :=
  c.round.bind fun r =>
    if r.status = .pending ∧ r.covers a.stamp = true ∧ r.selections.get? a.participant = none then
      (c.kindOf? a.object).map fun kind => (r, ⟨a.object, kind, a.stamp⟩)
    else none

/-- **What becomes of an attempt**: the scene is looked over, and the selection is recorded if it is taken. -/
theorem attempt_eq (c : Coordinator) (a : Attempt) : c.attempt a =
    match c.checkScene.offer? a with
    | some (r, s) => c.checkScene.record r a.participant s
    | none => (c.checkScene, []) := by
  unfold attempt select offer? kindOf?
  dsimp only
  cases c.checkScene.round with
  | none => rfl
  | some r =>
    dsimp only [Option.bind_some]
    by_cases open_ : r.status = .pending ∧ r.covers a.stamp = true
    · rw [if_neg (by simp [open_.1, open_.2])]
      cases c.checkScene.scene.toList.find? (fun o => o.id = a.object) with
      | none =>
        rw [Option.map_none, Option.map_none, ite_self]
        rfl
      | some found =>
        cases held : r.selections.get? a.participant with
        | none =>
          rw [if_pos ⟨open_.1, open_.2, rfl⟩]
          simp [OrderedMap.contains, held]
          rfl
        | some s =>
          simp [OrderedMap.contains, held]
          rfl
    · have turned : (decide (r.status ≠ .pending) || !r.covers a.stamp) = true := by
        rcases Decidable.not_and_iff_or_not.mp open_ with ended | outside
        · simp [ended]
        · simp [outside]
      have unoffered : ¬ (r.status = .pending ∧ r.covers a.stamp = true ∧
          r.selections.get? a.participant = none) := fun h => open_ ⟨h.1, h.2.1⟩
      rw [if_neg unoffered]
      simp only [turned]
      rfl

section attempt

variable {c : Coordinator} {a b : Attempt} {r : MatchRound} {s t : Selection} {p q : ParticipantId}

theorem attempt_of_none (h : c.checkScene.offer? a = none) : c.attempt a = (c.checkScene, []) := by
  rw [attempt_eq, h]

theorem attempt_of_some (h : c.checkScene.offer? a = some (r, s)) :
    c.attempt a = c.checkScene.record r a.participant s := by
  rw [attempt_eq, h]

theorem offer?_eq_some_iff : c.offer? a = some (r, s) ↔
    c.Takes r a.participant s ∧ r.status = .pending ∧ s.object = a.object ∧ s.stamp = a.stamp := by
  unfold offer?
  constructor
  · intro h
    obtain ⟨r', pending, h⟩ := Option.bind_eq_some_iff.mp h
    split at h
    · rename_i open_
      obtain ⟨kind, found, same⟩ := Option.map_eq_some_iff.mp h
      cases same
      exact ⟨⟨pending, open_.2.1, found, open_.2.2⟩, open_.1, rfl, rfl⟩
    · cases h
  · rintro ⟨takes, open_, object, stamp⟩
    obtain ⟨_, kind, _⟩ := s
    cases object
    cases stamp
    rw [takes.pending, Option.bind_some, if_pos ⟨open_, takes.covered, takes.first⟩, takes.kind]
    rfl

/-- A round that is not satisfied by one more selection goes on. -/
theorem record_of_unsatisfied (h : (r.taking p s).isSatisfied c.participants = false) :
    c.record r p s = ({ c with round := some (r.taking p s) }, [selectionChange p s]) :=
  if_neg (ne_true_of_eq_false h)

/-- A round that is satisfied by one more selection is over. -/
theorem record_of_satisfied (h : (r.taking p s).isSatisfied c.participants = true) :
    c.record r p s =
      (c.resolve (r.taking p s) .completed, [selectionChange p s, completedChange (r.taking p s)]) := by
  have stands := (get?_taking r p s p).trans (if_pos rfl)
  have latest := (MatchRound.latestSelection_eq stands s.stamp).1
  refine (if_pos h).trans ?_
  rw [completedChange, ← latest]
  rfl

/-- One selection does not satisfy a round. -/
theorem not_isSatisfied_of_left (h : r.selections.get? c.participants.1 = none) :
    r.isSatisfied c.participants = false := by
  rw [MatchRound.isSatisfied, h]

theorem not_isSatisfied_of_right (h : r.selections.get? c.participants.2 = none) :
    r.isSatisfied c.participants = false := by
  rw [MatchRound.isSatisfied, h]
  cases r.selections.get? c.participants.1 <;> rfl

/-- The order in which a round takes two selections does not show. -/
theorem taking_comm (apart : p ≠ q) : (r.taking p s).taking q t = (r.taking q t).taking p s := by
  have same : (r.selections.insert p s).insert q t = (r.selections.insert q t).insert p s := by
    refine OrderedMap.ext_get? fun o => ?_
    rw [OrderedMap.get?_insert, OrderedMap.get?_insert, OrderedMap.get?_insert, OrderedMap.get?_insert]
    by_cases left : p = o
    · have right : q ≠ o := left ▸ apart.symm
      rw [if_pos left, if_neg right, if_pos left]
    · rw [if_neg left, if_neg left]
  exact congrArg (fun selections => { r with selections := selections }) same

/-! ## Two attempts of different participants -/

/-- The scene is looked over once. -/
theorem checkScene_of_checked (h : ∀ r, c.round = some r → r.sceneChecked = true) : c.checkScene = c := by
  unfold checkScene
  cases pending : c.round with
  | none => rfl
  | some r => exact if_pos (h r pending)

theorem sceneChecked_checkScene (h : c.checkScene.round = some r) : r.sceneChecked = true := by
  rw [round_checkScene] at h
  obtain ⟨_, -, rfl⟩ := Option.map_eq_some_iff.mp h
  rfl

@[simp] theorem checkScene_checkScene (c : Coordinator) : c.checkScene.checkScene = c.checkScene :=
  checkScene_of_checked fun _ => sceneChecked_checkScene

@[simp] theorem attempt_checkScene (c : Coordinator) (a : Attempt) : c.checkScene.attempt a = c.attempt a := by
  rw [attempt_eq, attempt_eq, checkScene_checkScene]

/-- An attempt records a selection in the round that takes it, or nothing. -/
theorem attempt_cases (c : Coordinator) (a : Attempt) :
    (c.checkScene.offer? a = none ∧ c.attempt a = (c.checkScene, [])) ∨
    (∃ r s, c.checkScene.offer? a = some (r, s) ∧ (r.taking a.participant s).isSatisfied c.participants = false ∧
      c.attempt a = ({ c.checkScene with round := some (r.taking a.participant s) },
        [selectionChange a.participant s])) ∨
    ∃ r s, c.checkScene.offer? a = some (r, s) ∧ (r.taking a.participant s).isSatisfied c.participants = true ∧
      c.attempt a = (c.checkScene.resolve (r.taking a.participant s) .completed,
        [selectionChange a.participant s, completedChange (r.taking a.participant s)]) := by
  cases offered : c.checkScene.offer? a with
  | none => exact .inl ⟨rfl, attempt_of_none offered⟩
  | some taken =>
    obtain ⟨r, s⟩ := taken
    have recorded := attempt_of_some offered
    cases satisfied : (r.taking a.participant s).isSatisfied c.participants with
    | false =>
      rw [record_of_unsatisfied (c.participants_checkScene.symm ▸ satisfied)] at recorded
      exact .inr (.inl ⟨r, s, rfl, satisfied, recorded⟩)
    | true =>
      rw [record_of_satisfied (c.participants_checkScene.symm ▸ satisfied)] at recorded
      exact .inr (.inr ⟨r, s, rfl, satisfied, recorded⟩)

theorem participants_attempt (c : Coordinator) (a : Attempt) : (c.attempt a).1.participants = c.participants :=
  (selects_select c a.participant a.object a.stamp).alike.participants.symm

theorem checkScene_attempt (c : Coordinator) (a : Attempt) : (c.attempt a).1.checkScene = (c.attempt a).1 := by
  refine checkScene_of_checked fun r' here => ?_
  rcases c.attempt_cases a with ⟨-, same⟩ | ⟨r, s, offered, -, same⟩ | ⟨r, s, -, -, same⟩
  · rw [same] at here
    exact sceneChecked_checkScene here
  · rw [same] at here
    cases here
    exact sceneChecked_checkScene (r := r) (offer?_eq_some_iff.mp offered).1.pending
  · rw [same] at here
    cases here

/-- What is refused is refused after any other attempt too. -/
theorem offer?_attempt_of_none (h : c.checkScene.offer? a = none) (b : Attempt) :
    (c.attempt b).1.offer? a = none := by
  rcases c.attempt_cases b with ⟨-, same⟩ | ⟨r, s, offered, -, same⟩ | ⟨r, s, -, -, same⟩
  · rwa [same]
  · -- The round has one more selection, and is the same otherwise.
    refine Option.eq_none_iff_forall_ne_some.mpr fun ⟨r', t⟩ now => ?_
    rw [same] at now
    obtain ⟨takes, open_, object, stamp⟩ := offer?_eq_some_iff.mp now
    have round : r.taking b.participant s = r' := Option.some.inj takes.pending
    have unselected : r.selections.get? a.participant = none := by
      have first := takes.first
      rw [← round, get?_taking] at first
      split at first
      · cases first
      · exact first
    have before : c.checkScene.offer? a = some (r, t) := by
      have covered := takes.covered
      rw [← round] at covered open_
      exact offer?_eq_some_iff.mpr
        ⟨⟨(offer?_eq_some_iff.mp offered).1.pending, covered, takes.kind, unselected⟩, open_, object, stamp⟩
    rw [h] at before
    cases before
  · rw [same]
    rfl

/-- What has been refused changes nothing that has not been changed already. -/
theorem attempt_attempt_of_none (h : c.checkScene.offer? a = none) (b : Attempt) :
    (c.attempt b).1.attempt a = ((c.attempt b).1, []) := by
  have refused := offer?_attempt_of_none h b
  rw [← checkScene_attempt] at refused
  rw [attempt_of_none refused, checkScene_attempt]

/-- A round that is not satisfied by one selection takes the other one as it would have taken it before. -/
theorem attempt_attempt_of_some (first : c.checkScene.offer? a = some (r, s))
    (second : c.checkScene.offer? b = some (r, t)) (apart : a.participant ≠ b.participant)
    (unsatisfied : (r.taking a.participant s).isSatisfied c.participants = false) :
    (c.attempt a).2 = [selectionChange a.participant s] ∧
      (c.attempt a).1.attempt b = c.checkScene.record (r.taking a.participant s) b.participant t := by
  obtain ⟨takes, open_, object, stamp⟩ := offer?_eq_some_iff.mp second
  have went := attempt_of_some first
  rw [record_of_unsatisfied (c.participants_checkScene.symm ▸ unsatisfied)] at went
  have still : (c.attempt a).1.offer? b = some (r.taking a.participant s, t) := by
    rw [went]
    refine offer?_eq_some_iff.mpr ⟨⟨rfl, takes.covered, takes.kind, ?_⟩, open_, object, stamp⟩
    rw [get?_taking, if_neg apart]
    exact takes.first
  rw [← checkScene_attempt] at still
  rw [attempt_of_some still, checkScene_attempt, went]
  exact ⟨rfl, rfl⟩

/-- **Attempts of the two participants may be exchanged.** -/
theorem attempt_swap (left : a.participant = c.participants.1) (right : b.participant = c.participants.2)
    (apart : c.participants.1 ≠ c.participants.2) :
    ((c.attempt a).1.attempt b).1 = ((c.attempt b).1.attempt a).1 ∧
      ((c.attempt a).2 ++ ((c.attempt a).1.attempt b).2).Perm
        ((c.attempt b).2 ++ ((c.attempt b).1.attempt a).2) := by
  cases first : c.checkScene.offer? a with
  | none =>
    -- Refused before and after.
    rw [attempt_attempt_of_none first, attempt_of_none first, attempt_checkScene, List.append_nil, List.nil_append]
    exact ⟨rfl, .refl _⟩
  | some one =>
    obtain ⟨r, s⟩ := one
    cases second : c.checkScene.offer? b with
    | none =>
      rw [attempt_attempt_of_none second, attempt_of_none second, attempt_checkScene, List.append_nil,
        List.nil_append]
      exact ⟨rfl, .refl _⟩
    | some other =>
      obtain ⟨r', t⟩ := other
      have takes := (offer?_eq_some_iff.mp first).1
      have takes' := (offer?_eq_some_iff.mp second).1
      obtain rfl : r = r' := Option.some.inj (takes.pending.symm.trans takes'.pending)
      have ne : a.participant ≠ b.participant := by rwa [left, right]
      -- Whichever comes first leaves the round without the selection of the other one.
      have alone : (r.taking a.participant s).isSatisfied c.participants = false := by
        refine not_isSatisfied_of_right ?_
        rw [get?_taking, if_neg (right ▸ ne), ← right]
        exact takes'.first
      have alone' : (r.taking b.participant t).isSatisfied c.participants = false := by
        refine not_isSatisfied_of_left ?_
        rw [get?_taking, if_neg (left ▸ ne.symm), ← left]
        exact takes.first
      obtain ⟨shown, went⟩ := attempt_attempt_of_some first second ne alone
      obtain ⟨shown', went'⟩ := attempt_attempt_of_some second first ne.symm alone'
      have both := taking_comm (r := r) (s := s) (t := t) ne
      rw [shown, shown', went, went']
      cases satisfied : ((r.taking a.participant s).taking b.participant t).isSatisfied
          c.checkScene.participants with
      | false =>
        rw [record_of_unsatisfied satisfied, record_of_unsatisfied (both ▸ satisfied), both]
        exact ⟨rfl, .swap _ _ _⟩
      | true =>
        rw [record_of_satisfied satisfied, record_of_satisfied (both ▸ satisfied), both]
        exact ⟨rfl, .swap _ _ _⟩

end attempt

/-! ## Interleavings -/

/-- Two lists of attempts come to the same, and are shown by the same changes in some order. -/
def Agree (c : Coordinator) (l l' : List Attempt) : Prop :=
  (c.attempts l).1 = (c.attempts l').1 ∧ (c.attempts l).2.Perm (c.attempts l').2

namespace Agree

variable {c : Coordinator} {l m n : List Attempt}

theorem refl (c : Coordinator) (l : List Attempt) : c.Agree l l := ⟨rfl, .refl _⟩

theorem symm (h : c.Agree l m) : c.Agree m l := ⟨h.1.symm, h.2.symm⟩

theorem trans (first : c.Agree l m) (second : c.Agree m n) : c.Agree l n :=
  ⟨first.1.trans second.1, first.2.trans second.2⟩

theorem cons {a : Attempt} (h : (c.attempt a).1.Agree l m) : c.Agree (a :: l) (a :: m) :=
  ⟨h.1, h.2.append_left _⟩

theorem swap {a b : Attempt} (left : a.participant = c.participants.1) (right : b.participant = c.participants.2)
    (apart : c.participants.1 ≠ c.participants.2) (l : List Attempt) : c.Agree (b :: a :: l) (a :: b :: l) := by
  obtain ⟨same, perm⟩ := attempt_swap left right apart
  refine ⟨?_, ?_⟩
  · show (((c.attempt b).1.attempt a).1.attempts l).1 = (((c.attempt a).1.attempt b).1.attempts l).1
    rw [same]
  · show ((c.attempt b).2 ++ (((c.attempt b).1.attempt a).2 ++ (((c.attempt b).1.attempt a).1.attempts l).2)).Perm
      ((c.attempt a).2 ++ (((c.attempt a).1.attempt b).2 ++ (((c.attempt a).1.attempt b).1.attempts l).2))
    rw [← List.append_assoc, ← List.append_assoc, same]
    exact (perm.append_right _).symm

end Agree

section Interleaves

variable {c : Coordinator} {xs ys l : List Attempt}

/-- An attempt of the one participant may wait for all those of the other one. -/
theorem agree_middle {b : Attempt} (left : ∀ a ∈ xs, a.participant = c.participants.1)
    (right : b.participant = c.participants.2) (apart : c.participants.1 ≠ c.participants.2) :
    c.Agree (b :: (xs ++ ys)) (xs ++ b :: ys) := by
  induction xs generalizing c with
  | nil => exact .refl c _
  | cons a xs ih =>
    have here := c.participants_attempt a
    refine (Agree.swap (left a List.mem_cons_self) right apart (xs ++ ys)).trans (.cons ?_)
    refine ih (fun a' mem => ?_) (here ▸ right) (here ▸ apart)
    rw [here]
    exact left a' (List.mem_cons_of_mem a mem)

/-- An interleaving comes to the same as the attempts of one participant before those of the other one. -/
theorem agree_append (h : Interleaves xs ys l) (left : ∀ a ∈ xs, a.participant = c.participants.1)
    (right : ∀ b ∈ ys, b.participant = c.participants.2) (apart : c.participants.1 ≠ c.participants.2) :
    c.Agree l (xs ++ ys) := by
  induction h generalizing c with
  | nil => exact .refl c _
  | left a _ ih =>
    have here := c.participants_attempt a
    refine .cons (ih (fun a' mem => ?_) (here ▸ right) (here ▸ apart))
    rw [here]
    exact left a' (List.mem_cons_of_mem a mem)
  | right b _ ih =>
    have here := c.participants_attempt b
    refine (Agree.cons (ih (here ▸ left) (fun b' mem => ?_) (here ▸ apart))).trans
      (agree_middle left (right b List.mem_cons_self) apart)
    rw [here]
    exact right b' (List.mem_cons_of_mem b mem)

end Interleaves

/-! ## What becomes of an open round -/

section outcome

variable {c : Coordinator} {r : MatchRound}

/-- Where no round is open, every attempt is refused. -/
theorem attempts_of_ended (ended : c.round = none) (l : List Attempt) : c.attempts l = (c, []) := by
  have checked : c.checkScene = c := checkScene_of_checked fun r here => by rw [ended] at here; cases here
  induction l with
  | nil => rfl
  | cons a rest ih =>
    have refused : c.attempt a = (c, []) := by
      have none : c.checkScene.offer? a = none := by rw [checked, offer?, ended]; rfl
      rw [attempt_of_none none, checked]
    rw [attempts, refused, ih]
    rfl

/-- The changes that show how a round stands. -/
def statusChanges (changes : List FieldChange) : List FieldChange := changes.filter (·.key = "round-status")

theorem statusChanges_selectionChange (p : ParticipantId) (s : Selection) (rest : List FieldChange) :
    statusChanges (selectionChange p s :: rest) = statusChanges rest :=
  List.filter_cons_of_neg fun same => selectionKey_ne_status p (of_decide_eq_true same)

/-- Where a round stands after several attempts: it is open as before, or it has been completed once. -/
inductive Outcome (c : Coordinator) (r : MatchRound) : Coordinator × List FieldChange → Prop where
  | open_ {c' : Coordinator} {changes : List FieldChange} {r' : MatchRound} (round : c'.round = some r')
      (status : r'.status = r.status) (archive : c'.archive = c.archive) (silent : statusChanges changes = []) :
      Outcome c r (c', changes)
  | completed {c' : Coordinator} {changes : List FieldChange} {done : MatchRound} {s t : Selection}
      (round : c'.round = none) (archive : c'.archive = c.archive.push done) (status : done.status = .completed)
      (left : done.selections.get? c.participants.1 = some s)
      (right : done.selections.get? c.participants.2 = some t)
      (only : ∀ q, done.selections.get? q ≠ none →
        r.selections.get? q ≠ none ∨ q = c.participants.1 ∨ q = c.participants.2)
      (shown : statusChanges changes = [completedChange done]) : Outcome c r (c', changes)

/-- Selections that have been made do not change how a round stands. -/
theorem Outcome.of {d : Coordinator} {r' : MatchRound} {first : List FieldChange}
    {out : Coordinator × List FieldChange} (h : Outcome d r' out) (participants : d.participants = c.participants)
    (archive : d.archive = c.archive) (status : r'.status = r.status)
    (only : ∀ q, r'.selections.get? q ≠ none →
      r.selections.get? q ≠ none ∨ q = c.participants.1 ∨ q = c.participants.2)
    (silent : statusChanges first = []) : Outcome c r (out.1, first ++ out.2) := by
  have whole : ∀ changes, statusChanges (first ++ changes) = statusChanges changes := by
    intro changes
    show (first ++ changes).filter _ = _
    rw [List.filter_append]
    exact (congrArg (· ++ statusChanges changes) silent).trans (List.nil_append _)
  cases h with
  | open_ round same before quiet =>
    exact .open_ round (same.trans status) (before.trans archive) ((whole _).trans quiet)
  | completed round pushed done left right among shown =>
    rw [participants] at left right among
    refine .completed round (archive ▸ pushed) done left right (fun q held => ?_) ((whole _).trans shown)
    rcases among q held with before | side
    · exact only q before
    · exact .inr side

theorem outcome_attempts (round : c.round = some r) {l : List Attempt}
    (sides : ∀ a ∈ l, a.participant = c.participants.1 ∨ a.participant = c.participants.2) :
    Outcome c r (c.attempts l) := by
  induction l generalizing c r with
  | nil => exact .open_ round rfl rfl rfl
  | cons a rest ih =>
    have checked : c.checkScene.round = some { r with sceneChecked := true } := by
      rw [round_checkScene, round]
      rfl
    have later : ∀ a' ∈ rest, a'.participant = (c.attempt a).1.participants.1 ∨
        a'.participant = (c.attempt a).1.participants.2 := by
      rw [participants_attempt]
      exact fun a' mem => sides a' (List.mem_cons_of_mem a mem)
    rw [attempts]
    rcases c.attempt_cases a with ⟨-, went⟩ | ⟨r', s, offered, -, went⟩ | ⟨r', s, offered, satisfied, went⟩
    · rw [went] at later ⊢
      exact (ih checked later).of c.participants_checkScene c.archive_checkScene rfl (fun q held => .inl held) rfl
    · rw [went] at later ⊢
      obtain rfl := Option.some.inj (checked.symm.trans (offer?_eq_some_iff.mp offered).1.pending)
      refine (ih (r := MatchRound.taking { r with sceneChecked := true } a.participant s) rfl later).of c.participants_checkScene c.archive_checkScene rfl (fun q held => ?_)
        (statusChanges_selectionChange _ _ [])
      rw [get?_taking] at held
      split at held
      · rename_i own
        exact .inr (own ▸ sides a List.mem_cons_self)
      · exact .inl held
    · rw [went, attempts_of_ended rfl]
      obtain rfl := Option.some.inj (checked.symm.trans (offer?_eq_some_iff.mp offered).1.pending)
      unfold MatchRound.isSatisfied at satisfied
      split at satisfied
      · rename_i s' t' left right
        have archive : c.checkScene.archive.push
            { MatchRound.taking { r with sceneChecked := true } a.participant s with status := .completed } =
          c.archive.push
            { MatchRound.taking { r with sceneChecked := true } a.participant s with status := .completed } := by
          rw [archive_checkScene]
        refine .completed rfl archive rfl left right (fun q held => ?_)
          (statusChanges_selectionChange a.participant s [_])
        · change (MatchRound.taking _ a.participant s).selections.get? q ≠ none at held
          rw [get?_taking] at held
          split at held
          · rename_i own
            exact .inr (own ▸ sides a List.mem_cons_self)
          · exact .inl held
      · cases satisfied

end outcome

/-! ## Both orders -/

/-- **The order of selections does not matter.**  Let both participants try to select in an open round as often as they
like, with any objects and any stamps.  However their attempts are interleaved, the coordinator ends as one and the same
and the changes are the same in some order.  Either the round is still open and no change says that it has ended, or it
has been archived as completed with a selection of each participant, and one change says so, under the stamp of the
latest selection: that is the later one of these two, unless somebody else has selected in the round before. -/
theorem attempts_agree {c : Coordinator} {r : MatchRound} {xs ys l l' : List Attempt} (pending : c.round = some r)
    (apart : c.participants.1 ≠ c.participants.2) (left : ∀ a ∈ xs, a.participant = c.participants.1)
    (right : ∀ b ∈ ys, b.participant = c.participants.2) (one : Interleaves xs ys l)
    (other : Interleaves xs ys l') :
    ((c.attempts l).1 = (c.attempts l').1 ∧ (c.attempts l).2.Perm (c.attempts l').2) ∧
      ((∃ r', (c.attempts l).1.round = some r' ∧ r'.status = r.status ∧ (c.attempts l).1.archive = c.archive ∧
          statusChanges (c.attempts l).2 = []) ∨
        ∃ done s t, (c.attempts l).1.round = none ∧ (c.attempts l).1.archive = c.archive.push done ∧
          done.status = .completed ∧ done.selections.get? c.participants.1 = some s ∧
          done.selections.get? c.participants.2 = some t ∧
          statusChanges (c.attempts l).2 =
            [⟨"round-status", .text RoundStatus.completed.label, done.resolvedAt⟩] ∧
          ((∀ q, r.selections.get? q ≠ none → q = c.participants.1 ∨ q = c.participants.2) →
            done.resolvedAt = s.stamp.highest t.stamp)) := by
  refine ⟨(agree_append one left right apart).trans (agree_append other left right apart).symm, ?_⟩
  have sides := one.forall_mem (fun a mem => Or.inl (left a mem)) (fun b mem => Or.inr (right b mem))
  have outcome := outcome_attempts pending sides
  generalize c.attempts l = out at outcome
  cases outcome with
  | open_ round status archive silent => exact .inl ⟨_, round, status, archive, silent⟩
  | @completed _ _ done s t round archive status first second only shown =>
    refine .inr ⟨done, s, t, round, archive, status, first, second, shown, fun among => ?_⟩
    refine MatchRound.resolvedAt_eq_highest apart first second fun q held => ?_
    rcases only q held with before | side
    · exact among q before
    · exact side

/-- A round without a target among two objects of one kind and one of another, open from the first second to the
tenth. -/
def threeObjects : Coordinator where
  participants := (⟨1⟩, ⟨2⟩)
  scene := .ofList [⟨⟨1⟩, ⟨7⟩, "", .zero, .zero, .zero, .zero⟩, ⟨⟨2⟩, ⟨3⟩, "", .zero, .zero, .zero, .zero⟩,
    ⟨⟨3⟩, ⟨7⟩, "", .zero, .zero, .zero, .zero⟩]
  nextObject := 4
  round := some ⟨1, none, (⟨.zero, .zero, .zero, .zero⟩, ⟨.zero, .zero, .zero, .zero⟩), .ofSeconds 1, .ofSeconds 10,
    .pending, .empty, false⟩
  archive := .empty
  roundsOpened := 1
  warnings := []

/-- The first participant selects too early, then the first object and then the second one; the other one selects what
is not there, then the third object and then that again after the end.  Whoever begins, the round is completed when the
later of the two selections is made. -/
theorem attempts_agree_threeObjects :
    let at_ : Nat → ParticipantId → Stamp := fun n p => ⟨.ofSeconds n, 0, .participant p⟩
    let xs : List Attempt := [⟨⟨1⟩, ⟨1⟩, at_ 0 ⟨1⟩⟩, ⟨⟨1⟩, ⟨1⟩, at_ 2 ⟨1⟩⟩, ⟨⟨1⟩, ⟨2⟩, at_ 4 ⟨1⟩⟩]
    let ys : List Attempt := [⟨⟨2⟩, ⟨9⟩, at_ 3 ⟨2⟩⟩, ⟨⟨2⟩, ⟨3⟩, at_ 5 ⟨2⟩⟩, ⟨⟨2⟩, ⟨3⟩, at_ 11 ⟨2⟩⟩]
    threeObjects.Agree (xs ++ ys) (ys ++ xs) ∧
      statusChanges (threeObjects.attempts (ys ++ xs)).2 =
        [⟨"round-status", .text RoundStatus.completed.label, at_ 5 ⟨2⟩⟩] := by
  intro at_ xs ys
  have pending : threeObjects.round.isSome = true := rfl
  have left : ∀ a ∈ xs, a.participant = threeObjects.participants.1 := by decide
  have right : ∀ b ∈ ys, b.participant = threeObjects.participants.2 := by decide
  have one : Interleaves xs ys (xs ++ ys) := .left _ (.left _ (.left _ (.right _ (.right _ (.right _ .nil)))))
  have other : Interleaves xs ys (ys ++ xs) := .right _ (.right _ (.right _ (.left _ (.left _ (.left _ .nil)))))
  exact ⟨(attempts_agree (Option.some_get pending).symm (by decide) left right one other).1, by decide +kernel⟩

end Coordinator

end Tandem
