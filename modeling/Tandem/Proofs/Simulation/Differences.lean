import Mathlib.Data.List.Forall2
import Mathlib.Data.List.Nodup
import Tandem.Simulation.Pair
import Tandem.Proofs.Peer.Runs
/-!
# The differences of two stores

There are two ways to ask whether two stores show the same.  `Store.agrees` compares them as maps, and
`Store.differences` goes through the fields of the first one and looks each of them up in the second.  The second way
sees a field that only the first store has, but not one that only the second store has, and tasks get fields while a
session runs.  So a pair of peers reports all its differences exactly when the guest has no field that the host lacks.

Both ways are measured by `OrderedMap.AlikeAt`, which looks at one field of two maps.  Values are compared by value
throughout, so what is not a number differs from everything, on both ways.
-/

namespace Tandem

theorem FieldValue.same_comm (v w : FieldValue) : v.same w = w.same v := by
  cases v <;> cases w <;> simp [same, Binary64.same_comm, eq_comm]

/-! ## Maps of values -/

/-- Two maps of values answer a look-up alike: neither has the field, or both have it with the same value. -/
def OrderedMap.AlikeAt (a b : OrderedMap FieldKey FieldValue) (k : FieldKey) : Prop :=
  Option.Rel (fun v w => v.same w = true) (a.get? k) (b.get? k)

namespace OrderedMap.AlikeAt

variable {a b : OrderedMap FieldKey FieldValue} {k : FieldKey}

theorem isSome_eq (h : a.AlikeAt b k) : (a.get? k).isSome = (b.get? k).isSome := by
  unfold AlikeAt at h
  generalize a.get? k = held at h
  generalize b.get? k = other at h
  cases h <;> rfl

theorem of_some {v w : FieldValue} (left : a.get? k = some v) (right : b.get? k = some w) :
    a.AlikeAt b k ↔ v.same w = true := by
  unfold AlikeAt
  rw [left, right]
  exact Option.rel_some_some

theorem of_none (left : a.get? k = none) (right : b.get? k = none) : a.AlikeAt b k := by
  unfold AlikeAt
  rw [left, right]
  exact .none

end OrderedMap.AlikeAt

theorem sameValues_iff_forall₂ (a b : OrderedMap FieldKey FieldValue) : sameValues a b = true ↔
    List.Forall₂ (fun e f => e.1 = f.1 ∧ e.2.same f.2 = true) a.entries b.entries := by
  rw [List.forall₂_iff_zip, sameValues, Bool.and_eq_true, decide_eq_true_eq, List.all_eq_true]
  simp only [Bool.and_eq_true, decide_eq_true_eq, Prod.forall]
  rfl

/-- Maps with the same keys list them in the same places. -/
theorem keys_eq_of_contains {a b : OrderedMap FieldKey FieldValue}
    (h : ∀ k, (a.get? k).isSome = (b.get? k).isSome) :
    List.Forall₂ (fun e f => e.1 = f.1) a.entries b.entries := by
  have bare : a.map (fun _ => ()) = b.map (fun _ => ()) := by
    refine OrderedMap.ext_get? fun k => ?_
    rw [OrderedMap.get?_map, OrderedMap.get?_map]
    have present := h k
    cases left : a.get? k <;> cases right : b.get? k <;> simp_all
  have entries : a.entries.map (fun e => (e.1, ())) = b.entries.map (fun e => (e.1, ())) :=
    congrArg OrderedMap.entries bare
  rw [← List.forall₂_eq_eq_eq, List.forall₂_map_left_iff, List.forall₂_map_right_iff] at entries
  exact entries.imp fun e f same => congrArg Prod.fst same

/-- **Two maps are equal by value** exactly when they answer every look-up alike. -/
theorem sameValues_iff (a b : OrderedMap FieldKey FieldValue) : sameValues a b = true ↔ ∀ k, a.AlikeAt b k := by
  rw [sameValues_iff_forall₂]
  constructor
  · intro pairs k
    unfold OrderedMap.AlikeAt OrderedMap.get?
    generalize a.entries = left at pairs
    generalize b.entries = right at pairs
    induction pairs with
    | nil => exact .none
    | @cons e f left right same pairs ih =>
      obtain ⟨key, value⟩ := same
      by_cases here : e.1 = k
      · rw [List.find?_cons_of_pos (by simpa using here), List.find?_cons_of_pos (by simpa using key.symm.trans here)]
        exact .some value
      · rw [List.find?_cons_of_neg (by simpa using here), List.find?_cons_of_neg (by simpa using key ▸ here)]
        exact ih
  · intro alike
    have keys := keys_eq_of_contains fun k => (alike k).isSome_eq
    obtain ⟨length, places⟩ := List.forall₂_iff_zip.mp keys
    refine List.forall₂_iff_zip.mpr ⟨length, fun {e f} mem => ⟨places mem, ?_⟩⟩
    obtain ⟨left, right⟩ := List.of_mem_zip mem
    have held : a.get? e.1 = some e.2 := (OrderedMap.get?_eq_some_iff a e.1 e.2).mpr left
    have other : b.get? e.1 = some f.2 := by
      rw [places mem]
      exact (OrderedMap.get?_eq_some_iff b f.1 f.2).mpr right
    exact (OrderedMap.AlikeAt.of_some held other).mp (alike e.1)

/-! ## Two stores -/

namespace Store

/-- Whether two stores show the same of a field. -/
def AlikeAt (a b : Store) (t : TaskId) (k : FieldKey) : Prop := (a.values t).AlikeAt (b.values t) k

/-- Whether a store has a field. -/
def Has (s : Store) (t : TaskId) (k : FieldKey) : Prop := ((s.values t).get? k).isSome = true

theorem not_alikeAt_of_lacks {a b : Store} {t : TaskId} {k : FieldKey} (there : b.Has t k) (lacks : ¬ a.Has t k) :
    ¬ a.AlikeAt b t k := fun alike => lacks ((OrderedMap.AlikeAt.isSome_eq alike).trans there)

theorem agrees_iff (a b : Store) : a.agrees b = true ↔ ∀ t k, a.AlikeAt b t k := by
  rw [agrees, List.all_eq_true]
  exact ⟨fun same t => (sameValues_iff _ _).mp (same t (TaskId.mem_all t)), fun alike t _ =>
    (sameValues_iff _ _).mpr (alike t)⟩

/-- What a field of the first store adds to the list. -/
def difference? (b : Store) (t : TaskId) (e : FieldKey × FieldValue) : Option (TaskId × FieldKey) :=
  match (b.values t).get? e.1 with
  | some other => if other.same e.2 then none else some (t, e.1)
  | none => some (t, e.1)

theorem differences_eq (a b : Store) :
    a.differences b = TaskId.all.flatMap (fun t => (a.values t).entries.filterMap (b.difference? t)) := rfl

/-- A field is listed under its own name unless the second store shows the same of it. -/
theorem difference?_eq_some_iff {a b : Store} {t : TaskId} {e : FieldKey × FieldValue} {x : TaskId × FieldKey}
    (held : (a.values t).get? e.1 = some e.2) :
    b.difference? t e = some x ↔ x = (t, e.1) ∧ ¬ a.AlikeAt b t e.1 := by
  unfold difference?
  cases other : (b.values t).get? e.1 with
  | none =>
    have apart : ¬ a.AlikeAt b t e.1 := by
      intro alike
      have both := OrderedMap.AlikeAt.isSome_eq alike
      rw [held, other] at both
      cases both
    simp [apart, eq_comm]
  | some w =>
    have alike : a.AlikeAt b t e.1 ↔ w.same e.2 = true := by
      rw [FieldValue.same_comm]
      exact OrderedMap.AlikeAt.of_some held other
    rw [alike]
    by_cases same : w.same e.2 = true <;> simp [same, eq_comm]

/-- **What is listed**: the fields of the first store that the second one lacks or shows with another value. -/
theorem mem_differences (a b : Store) (t : TaskId) (k : FieldKey) :
    (t, k) ∈ a.differences b ↔ a.Has t k ∧ ¬ a.AlikeAt b t k := by
  rw [differences_eq, List.mem_flatMap]
  constructor
  · rintro ⟨t', -, mem⟩
    obtain ⟨e, entry, listed⟩ := List.mem_filterMap.mp mem
    have held : (a.values t').get? e.1 = some e.2 := (OrderedMap.get?_eq_some_iff _ e.1 e.2).mpr entry
    obtain ⟨same, differs⟩ := (difference?_eq_some_iff held).mp listed
    cases same
    exact ⟨Option.isSome_of_eq_some held, differs⟩
  · rintro ⟨has, differs⟩
    obtain ⟨v, held⟩ := Option.isSome_iff_exists.mp has
    exact ⟨t, TaskId.mem_all t, List.mem_filterMap.mpr ⟨(k, v), (OrderedMap.get?_eq_some_iff _ k v).mp held,
      (difference?_eq_some_iff held).mpr ⟨rfl, differs⟩⟩⟩

theorem task_of_difference? {b : Store} {t : TaskId} {e : FieldKey × FieldValue} {x : TaskId × FieldKey}
    (listed : b.difference? t e = some x) : x = (t, e.1) := by
  unfold difference? at listed
  grind

/-- Nothing is listed twice. -/
theorem nodup_differences (a b : Store) : (a.differences b).Nodup := by
  rw [differences_eq, List.nodup_flatMap]
  constructor
  · intro t _
    refine List.pairwise_filterMap.mpr ((a.values t).sorted.imp fun {e f} before x listed y later same => ?_)
    rw [task_of_difference? listed, task_of_difference? later] at same
    have key : e.1 = f.1 := (Prod.ext_iff.mp same).2
    exact Std.lt_irrefl (key ▸ before)
  · refine (by decide : TaskId.all.Nodup).imp fun {t t'} apart x here there => ?_
    obtain ⟨e, -, listed⟩ := List.mem_filterMap.mp here
    obtain ⟨f, -, later⟩ := List.mem_filterMap.mp there
    have same := (task_of_difference? listed).symm.trans (task_of_difference? later)
    exact apart (Prod.ext_iff.mp same).1

/-- Where the second store has no field that the first one lacks, every difference is listed. -/
theorem mem_differences_iff_of_has {a b : Store} {t : TaskId} {k : FieldKey} (has : b.Has t k → a.Has t k) :
    (t, k) ∈ a.differences b ↔ ¬ a.AlikeAt b t k := by
  rw [mem_differences]
  refine ⟨And.right, fun differs => ⟨?_, differs⟩⟩
  by_contra lacks
  have left : (a.values t).get? k = none := Option.not_isSome_iff_eq_none.mp lacks
  have right : (b.values t).get? k = none := Option.not_isSome_iff_eq_none.mp fun there => lacks (has there)
  exact differs (.of_none left right)

end Store

/-! ## A pair of peers -/

namespace Pair

/-- **What a pair is to report**: the fields that differ between its peers, all of them and no others, each once, and
none exactly when the peers show the same. -/
structure ReportsAll (p : Pair) : Prop where
  listed : ∀ t k, (t, k) ∈ p.divergence ↔ ¬ (p.peer .host).store.AlikeAt (p.peer .guest).store t k
  once : p.divergence.Nodup
  silent : p.divergence = [] ↔ p.converged = true

theorem divergence_eq_nil_of_converged {p : Pair} (h : p.converged = true) : p.divergence = [] := by
  have alike := (Store.agrees_iff _ _).mp h
  refine List.eq_nil_iff_forall_not_mem.mpr fun ⟨t, k⟩ mem => ?_
  exact ((Store.mem_differences _ _ t k).mp mem).2 (alike t k)

/-- A pair reports all its differences exactly when the guest has no field that the host lacks. -/
theorem reportsAll_iff (p : Pair) :
    p.ReportsAll ↔ ∀ t k, (p.peer .guest).store.Has t k → (p.peer .host).store.Has t k := by
  constructor
  · intro reports t k there
    by_contra lacks
    have differs := Store.not_alikeAt_of_lacks there lacks
    exact lacks ((Store.mem_differences _ _ t k).mp ((reports.listed t k).mpr differs)).1
  · intro covered
    have listed : ∀ t k, (t, k) ∈ p.divergence ↔ ¬ (p.peer .host).store.AlikeAt (p.peer .guest).store t k :=
      fun t k => Store.mem_differences_iff_of_has (covered t k)
    have silent : p.divergence = [] → p.converged = true := by
      refine fun empty => (Store.agrees_iff _ _).mpr fun t k => ?_
      by_contra differs
      have mem := (listed t k).mpr differs
      rw [empty] at mem
      exact List.not_mem_nil mem
    exact ⟨listed, Store.nodup_differences _ _, silent, divergence_eq_nil_of_converged⟩

/-- A script that starts the monitoring task. -/
def monitoringText : String := "0:00:00;sysmon;start\n0:01:00;end\n"

/-- The commands of `monitoringText`. -/
def monitoringScript : List ScenarioCommand :=
  [⟨0, 0, .act (.task .monitoring) .start, 1, 0⟩, ⟨60, 0, .act .session .finish, 2, 1⟩]

/-- The peers meet, and the guest's participant acknowledges a light, of which the host is yet to hear. -/
def acknowledged (p : Pair) : Pair :=
  ((p.start (.ofSeconds 1)).2.update .guest (·.submitInput (.monitoringAck (.light 1)))).step standardStep

/-- The guest has a counter then that the host lacks: the stores differ in it, and it is not reported. -/
theorem not_reportsAll_acknowledged : ∃ p,
    Pair.new ⟨.simulated .host, .simulated .guest⟩ monitoringText .ideal = .ok p ∧
      (acknowledged p).converged = false ∧ (.monitoring, TaskState.hitKey ⟨2⟩) ∉ (acknowledged p).divergence ∧
      ¬ (acknowledged p).ReportsAll := by
  have loaded : ∀ role, Peer.loadScenario (.simulated role) monitoringText = .ok monitoringScript := by
    intro role
    cases role <;> decide +kernel
  have sorted : monitoringScript.Pairwise (fun a b => a.precedes b = true) := by decide
  obtain ⟨p, begins⟩ : ∃ p : Pair, p = ⟨⟨.new (.simulated .host) monitoringScript,
    .new (.simulated .guest) monitoringScript⟩, .new .ideal, .zero⟩ := ⟨_, rfl⟩
  have counted : ((acknowledged p).peer .guest).store.Has .monitoring (TaskState.hitKey ⟨2⟩) ∧
      ¬ ((acknowledged p).peer .host).store.Has .monitoring (TaskState.hitKey ⟨2⟩) := by
    rw [begins, Peer.new_of_sorted (.simulated .host) sorted, Peer.new_of_sorted (.simulated .guest) sorted]
    unfold Store.Has
    decide +kernel
  obtain ⟨there, lacks⟩ := counted
  have differs := Store.not_alikeAt_of_lacks there lacks
  have unlisted : (.monitoring, TaskState.hitKey ⟨2⟩) ∉ (acknowledged p).divergence :=
    fun mem => lacks ((Store.mem_differences _ _ _ _).mp mem).1
  refine ⟨p, ?_, ?_, unlisted, fun reports => unlisted ((reports.listed _ _).mpr differs)⟩
  · rw [begins, Pair.new, loaded .host, loaded .guest]
    rfl
  · exact Bool.eq_false_iff.mpr fun same => differs ((Store.agrees_iff _ _).mp same _ _)

end Pair

end Tandem
