import Mathlib.Algebra.GroupWithZero.Nat
import Mathlib.Data.List.DropRight
import Tandem.Proofs.Store.Again
import Tandem.Proofs.Store.History
/-!
# What a store tells of itself

A mutation that changes something is told in four ways: the version of its task counts it, the journal notes it, the
queue of notifications notes it as long as there is room, and the snapshot of the task is published anew.  The journal
and the queue are drained at any time, each by its own reader.

`WatchedStore` has beside the store what its callers have seen: what their mutations have done (`effects`), what they
have taken from the journal (`fetched`), and in what portions the notes have gone to the reader of the queue.  What they
have seen determines what they will be told: no call lets one of the four fall behind (`WatchedStore.Kept.call`,
`WatchedStore.views_agree`).

Whether a mutation changes something is said of the fields that it finds (`Store.IsChangedBy`): the first change that is
admitted there is admitted whatever comes before it.
-/

namespace Tandem

namespace Store

variable {s : Store} {m : Mutation}

/-- Some change of a mutation finds no cell in its place, or one that gives way to it. -/
def IsChangedBy (s : Store) (m : Mutation) : Prop :=
  ∃ c ∈ m.changes, TaskState.admits ((s.read m.task).cell? c.key) c = true

instance (s : Store) (m : Mutation) : Decidable (s.IsChangedBy m) :=
  inferInstanceAs (Decidable (∃ c ∈ m.changes, TaskState.admits ((s.read m.task).cell? c.key) c = true))

/-- What a mutation does when its changes that are admitted take effect. -/
def effectOf (s : Store) (m : Mutation) : Mutation := ⟨m.task, m.origin, (s.apply m).2.applied⟩

/-- The note of a mutation that changes something. -/
def noteOf (s : Store) (m : Mutation) : Notification :=
  ⟨m.task, m.origin, (s.read m.task).version + 1, (s.apply m).2.applied⟩

theorem apply_of_not_isChangedBy (h : ¬ s.IsChangedBy m) : (s.apply m).1 = s :=
  (s.apply_eq_self_iff m).mpr fun c mem => Bool.eq_false_iff.mpr fun admitted => h ⟨c, mem, admitted⟩

/-- The state of a task that a mutation changes, before it is stored. -/
theorem version_of_isChangedBy (h : s.IsChangedBy m) :
    ((s.read m.task).apply m.origin m.changes).2.isNoop = false ∧
      ((s.read m.task).apply m.origin m.changes).1.version = (s.read m.task).version + 1 := by
  have effective : ((s.read m.task).apply m.origin m.changes).2.isNoop = false := by
    refine Bool.eq_false_iff.mpr fun noop => ?_
    obtain ⟨c, mem, admitted⟩ := h
    rw [(TaskState.isNoop_apply_iff _ _ _).mp noop c mem] at admitted
    cases admitted
  exact ⟨effective, TaskState.version_apply effective⟩

/-- What a store tells once a note has been taken of a mutation. -/
structure Notes (s s' : Store) (n : Notification) : Prop where
  journal : s'.journal = s.journal.push n
  notifications : s'.notifications = (s.push n).notifications
  dropped : s'.dropped = (s.push n).dropped
  capacity : s'.capacity = s.capacity
  published : ∀ t, s'.published.get t = if n.task = t then (s'.read t).snapshot else s.published.get t

/-- **A mutation that changes something is told in every way.** -/
theorem notes_apply (h : s.IsChangedBy m) : s.Notes (s.apply m).1 (s.noteOf m) := by
  obtain ⟨effective, version⟩ := version_of_isChangedBy h
  have note : s.noteOf m = ⟨m.task, m.origin, ((s.read m.task).apply m.origin m.changes).1.version,
      ((s.read m.task).apply m.origin m.changes).2.applied⟩ := by
    rw [noteOf, outcome_apply, version]
  have aside : ∀ n, (s.push n).journal = s.journal ∧ (s.push n).published = s.published ∧
      (s.push n).capacity = s.capacity := by
    intro n
    unfold push
    split
    · exact ⟨rfl, rfl, rfl⟩
    · split <;> exact ⟨rfl, rfl, rfl⟩
  obtain ⟨journal, published, capacity⟩ := aside (s.noteOf m)
  have read : (s.apply m).1.read m.task = ((s.read m.task).apply m.origin m.changes).1 := by
    rw [read_apply, if_pos rfl]
  rw [note] at journal published capacity ⊢
  unfold apply at read ⊢
  dsimp only at read ⊢
  rw [if_neg (Bool.eq_false_iff.mp effective)] at read ⊢
  refine ⟨congrArg (fun j => Fifo.push j _) journal, rfl, rfl, capacity, fun t => ?_⟩
  rw [published, PerTask.get_set]
  by_cases here : m.task = t
  · subst here
    rw [if_pos rfl, if_pos rfl]
    exact congrArg TaskState.snapshot read.symm
  · rw [if_neg here, if_neg here]

end Store

/-! ## A store and its callers -/

/-- What can be done to a store. -/
inductive StoreCall where
  | apply (m : Mutation)
  | drainJournal
  | drainNotifications

/-- A store, and what its callers have seen of it. -/
structure WatchedStore where
  store : Store
  /-- What the mutations have done that changed something, in order. -/
  effects : List Mutation
  /-- What has been taken from the journal. -/
  fetched : List Notification
  /-- How many notes there were between one drain of the notifications and the next. -/
  portions : List Nat

namespace WatchedStore

/-- A store at the start of a session, of which nothing has been seen. -/
def start (capacity : Nat) : WatchedStore := ⟨.new capacity, [], [], []⟩

/-- Every note, those in the journal last. -/
def notes (w : WatchedStore) : List Notification := w.fetched ++ w.store.journal.toList

/-- The notes since the notifications were last drained. -/
def recent (w : WatchedStore) : List Notification := w.notes.drop w.portions.sum

/-- The store after a call, and what the caller has seen. -/
def call (w : WatchedStore) : StoreCall → WatchedStore
  | .apply m =>
    { w with
      store := (w.store.apply m).1
      effects := if w.store.IsChangedBy m then w.effects ++ [w.store.effectOf m] else w.effects }
  | .drainJournal =>
    { w with store := w.store.drainJournal.2, fetched := w.fetched ++ w.store.drainJournal.1 }
  | .drainNotifications =>
    { w with store := w.store.drainNotifications.2, portions := w.portions ++ [w.recent.length] }

/-- The store after several calls. -/
def callAll (w : WatchedStore) (calls : List StoreCall) : WatchedStore := calls.foldl call w

/-- How many of several notes a queue of some capacity drops: those for which there is no room, and none if nothing is
queued at all. -/
def overflow (capacity n : Nat) : Nat := if capacity = 0 then 0 else n - capacity

/-- All that is told of a store agrees with what its callers have seen. -/
structure Kept (capacity : Nat) (w : WatchedStore) : Prop where
  capacity_eq : w.store.capacity = capacity
  version : ∀ t, (w.store.read t).version = w.effects.countP (·.task = t)
  noted : w.notes.map Notification.mutation = w.effects
  numbered : ∀ t, (w.notes.filter (·.task = t)).map (·.version) = List.range' 1 (w.effects.countP (·.task = t))
  portioned : w.portions.sum ≤ w.notes.length
  queued : w.store.notifications.toList = w.recent.rtake capacity
  dropped : w.store.dropped = ((w.portions ++ [w.recent.length]).map (overflow capacity)).sum
  published : ∀ t, w.store.published.get t = (w.store.read t).snapshot

theorem kept_start (capacity : Nat) : (start capacity).Kept capacity where
  capacity_eq := rfl
  version t := by rw [start, Store.read_new]; rfl
  noted := rfl
  numbered _ := rfl
  portioned := Nat.le_refl 0
  queued := (List.rtake_nil capacity).symm
  dropped := by simp [start, recent, notes, Store.new, overflow]
  published t := by
    rw [start, Store.read_new]
    exact PerTask.get_ofFn _ t

/-- A queue that holds the most recent notes holds them when there is one more, and counts what it drops for it. -/
theorem push_spec {s : Store} {recent : List Notification} (queued : s.notifications.toList = recent.rtake s.capacity)
    (n : Notification) : (s.push n).notifications.toList = (recent ++ [n]).rtake s.capacity ∧
      (s.push n).dropped + overflow s.capacity recent.length =
        s.dropped + overflow s.capacity (recent.length + 1) := by
  unfold Store.push overflow
  have size : s.notifications.size = recent.length - (recent.length - s.capacity) := by
    rw [Fifo.size_eq_length, queued, List.rtake, List.length_drop]
  by_cases none : s.capacity = 0
  · rw [if_pos none, if_pos none, if_pos none, none]
    rw [none] at queued
    exact ⟨by simpa using queued, rfl⟩
  · rw [if_neg none, if_neg none, if_neg none]
    by_cases full : s.notifications.size = s.capacity
    · obtain ⟨room, capacity⟩ := Nat.exists_eq_succ_of_ne_zero none
      rw [if_pos full]
      refine ⟨?_, ?_⟩
      · -- The oldest one makes room for the new one.
        rw [Fifo.toList_push, Fifo.toList_dropOldest, queued, capacity, List.rtake_concat_succ, List.rtake,
          List.rtake, List.drop_drop]
        congr 2
        omega
      · show s.dropped + 1 + _ = _
        omega
    · rw [if_neg full]
      refine ⟨?_, ?_⟩
      · have all : recent.length - s.capacity = 0 ∧ (recent ++ [n]).length - s.capacity = 0 := by
          rw [List.length_append, List.length_singleton]
          omega
        rw [Fifo.toList_push, queued, List.rtake, List.rtake, all.1, all.2]
        rfl
      · show s.dropped + _ = _
        omega

namespace Kept

variable {capacity : Nat} {w : WatchedStore}

/-- A mutation that changes something is seen everywhere. -/
theorem apply_changed (h : w.Kept capacity) {m : Mutation} (changed : w.store.IsChangedBy m) :
    (w.call (.apply m)).Kept capacity := by
  have told := Store.notes_apply changed
  have effects : (w.call (.apply m)).effects = w.effects ++ [w.store.effectOf m] := if_pos changed
  have notes : (w.call (.apply m)).notes = w.notes ++ [w.store.noteOf m] := by
    show w.fetched ++ (w.store.apply m).1.journal.toList = _
    rw [told.journal, Fifo.toList_push, WatchedStore.notes, List.append_assoc]
  have recent : (w.call (.apply m)).recent = w.recent ++ [w.store.noteOf m] := by
    show (w.call (.apply m)).notes.drop w.portions.sum = _
    rw [notes, List.drop_append_of_le_length h.portioned]
    rfl
  have count : ∀ t, (w.call (.apply m)).effects.countP (·.task = t) =
      w.effects.countP (·.task = t) + if m.task = t then 1 else 0 := by
    intro t
    rw [effects, List.countP_append, List.countP_singleton]
    have task : (w.store.effectOf m).task = m.task := rfl
    simp only [task, decide_eq_true_eq]
  have task : (w.store.noteOf m).task = m.task := rfl
  have queued : w.store.notifications.toList = w.recent.rtake w.store.capacity := h.capacity_eq ▸ h.queued
  obtain ⟨shown, dropped⟩ := push_spec queued (w.store.noteOf m)
  rw [h.capacity_eq] at shown dropped
  refine
    { capacity_eq := told.capacity.trans h.capacity_eq
      version := fun t => ?_
      noted := ?_
      numbered := fun t => ?_
      portioned := ?_
      queued := ?_
      dropped := ?_
      published := fun t => ?_ }
  · show ((w.store.apply m).1.read t).version = _
    rw [count, ← h.version, Store.read_apply]
    by_cases here : m.task = t
    · rw [if_pos here, if_pos here, (Store.version_of_isChangedBy changed).2, here]
    · rw [if_neg here, if_neg here, Nat.add_zero]
  · rw [notes, List.map_append, h.noted, effects]
    rfl
  · rw [notes, count, List.filter_append, List.map_append, h.numbered]
    by_cases here : m.task = t
    · -- The note carries the version that the task has come to.
      have next : ([w.store.noteOf m].filter (·.task = t)).map (·.version) =
          [1 + w.effects.countP (·.task = t)] := by
        rw [List.filter_cons_of_pos (by simpa [task] using here), ← h.version, Nat.add_comm, ← here]
        rfl
      rw [if_pos here, next, List.range'_1_concat]
    · rw [if_neg here, List.filter_cons_of_neg (by simpa [task] using here)]
      exact List.append_nil _
  · show w.portions.sum ≤ _
    rw [notes, List.length_append]
    exact Nat.le_add_right_of_le h.portioned
  · show (w.store.apply m).1.notifications.toList = _
    rw [told.notifications, recent, shown]
  · show (w.store.apply m).1.dropped = ((w.portions ++ [_]).map _).sum
    have before := h.dropped
    rw [List.map_append, List.sum_append, List.map_singleton, List.sum_singleton] at before ⊢
    rw [told.dropped, recent, List.length_append, List.length_singleton]
    omega
  · show (w.store.apply m).1.published.get t = ((w.store.apply m).1.read t).snapshot
    rw [told.published]
    by_cases here : m.task = t
    · exact if_pos here
    · rw [h.published, Store.read_apply, if_neg here]
      exact if_neg here

/-- **No call lets anything fall behind.** -/
theorem call (h : w.Kept capacity) (c : StoreCall) : (w.call c).Kept capacity := by
  cases c with
  | apply m =>
    by_cases changed : w.store.IsChangedBy m
    · exact h.apply_changed changed
    · have same : w.call (.apply m) = w := by
        simp only [WatchedStore.call, if_neg changed, Store.apply_of_not_isChangedBy changed]
      rw [same]
      exact h
  | drainJournal =>
    -- What leaves the journal has been fetched.
    have notes : (w.call .drainJournal).notes = w.notes := List.append_nil _
    have recent : (w.call .drainJournal).recent = w.recent := congrArg (List.drop _) notes
    exact
      { capacity_eq := h.capacity_eq
        version := h.version
        noted := notes ▸ h.noted
        numbered := notes ▸ h.numbered
        portioned := notes ▸ h.portioned
        queued := recent ▸ h.queued
        dropped := recent ▸ h.dropped
        published := h.published }
  | drainNotifications =>
    have portions : (w.call .drainNotifications).portions.sum = w.notes.length := by
      have rest : w.recent.length = w.notes.length - w.portions.sum := List.length_drop
      show (w.portions ++ [w.recent.length]).sum = _
      have whole := h.portioned
      rw [List.sum_append, List.sum_singleton]
      omega
    have recent : (w.call .drainNotifications).recent = [] := by
      show w.notes.drop (w.call .drainNotifications).portions.sum = []
      rw [portions, List.drop_length]
    exact
      { capacity_eq := h.capacity_eq
        version := h.version
        noted := h.noted
        numbered := h.numbered
        portioned := Nat.le_of_eq portions
        queued := by
          rw [recent, List.rtake_nil]
          rfl
        dropped := by
          rw [recent, List.map_append, List.sum_append]
          have none : overflow capacity 0 = 0 := by simp [overflow]
          have before := h.dropped
          rw [List.map_append] at before
          show w.store.dropped = ((w.portions ++ [w.recent.length]).map _).sum + _
          simpa [none] using before
        published := h.published }

theorem callAll (h : w.Kept capacity) (calls : List StoreCall) : (w.callAll calls).Kept capacity := by
  induction calls generalizing w with
  | nil => exact h
  | cons c rest ih => exact ih (h.call c)

end Kept

/-- **All that is told of a store agrees with what has been done to it.**  After any calls on a store at the start of a
session, whatever its capacity for notifications:

* the version of each task is the number of mutations of it that have changed something;
* what has been taken from the journal and what is in it are, together and in order, what took effect of these
  mutations, and for each task they carry the versions 1, 2, 3 and so on;
* the queue of notifications holds the last of those since it was last drained, as many as there is room for, and the
  others have been counted as dropped, then and in each portion before;
* the snapshot that is published of each task is that of its state. -/
theorem views_agree (capacity : Nat) (calls : List StoreCall) :
    let w := (start capacity).callAll calls
    (∀ t, (w.store.read t).version = w.effects.countP (·.task = t)) ∧
      (w.notes.map Notification.mutation = w.effects ∧
        ∀ t, (w.notes.filter (·.task = t)).map (·.version) = List.range' 1 (w.effects.countP (·.task = t))) ∧
      (w.store.notifications.toList = w.recent.rtake capacity ∧
        w.store.dropped = ((w.portions ++ [w.recent.length]).map (overflow capacity)).sum) ∧
      ∀ t, w.store.published.get t = (w.store.read t).snapshot := by
  have kept := (kept_start capacity).callAll calls
  exact ⟨kept.version, ⟨kept.noted, kept.numbered⟩, ⟨kept.queued, kept.dropped⟩, kept.published⟩

end WatchedStore

end Tandem
