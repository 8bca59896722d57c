import Tandem.Proofs.Reconcile.Exchanges
/-!
# Two sides converge

Whatever the order in which the two sides play the script, take inputs and take each other's messages: once both have
played the whole script and have taken every message, they hold the same fields with the same stamps and alike values
(`Setting.converges_after`).

`Side.Coherent` is what holds of one side at any time.  Each of its cells is explained (`Explains`) by three things:
what the script has left on its own, what the exchanges have written of which the side knows both messages, and
the write of the exchange of which it has only taken the input.  Each kind of move keeps this
(`Coherent.playNext`, `Coherent.input`, `Coherent.takeNext`, `Coherent.takeAgain`), and a side is indifferent to what
else the other one says (`Coherent.told`).

Own inputs are stamped above every cell of the side, so they always take effect, and the delta of an exchange holds
all that the input has written.  For the other side the input is written first as it comes out there.  It writes no
field that the delta lacks, so that the delta puts the fields right, up to the sign of a zero.
-/

namespace Tandem

namespace Side

/-- What holds of a side at any time, when `mine` has been sent and `theirs` is what the other side has sent. -/
structure Coherent (w : Setting) (r : Role) (mine theirs : List Exchange) (a : Side) : Prop where
  writer : a.reconciler.clock.writer = w.participants.get r
  log : ExchangeLog (w.participants.get r) mine
  sent : a.sent = mine.flatMap Exchange.messages
  issued : ∀ x ∈ mine, x.stamp.moment ≤ a.reconciler.clock.moment
  taken : a.taken ≤ 2 * theirs.length
  /-- The stamp of the last input that has been taken. -/
  high : a.reconciler.remoteHigh.get? (w.participants.get r.other) =
    (theirs.take ((a.taken + 1) / 2)).getLast?.map (·.stamp)
  sound : w.Sound a.played a.battery a.reconciler.clock
  cells : ∀ t key, Explains ((w.scripted a.played).cell? t key)
    (Written (mine ++ theirs.take (a.taken / 2)) t key) (a.awaited theirs t key) (a.battery.cell? t key)

variable {w : Setting} {r : Role} {mine theirs : List Exchange} {a : Side}

theorem coherent_new (w : Setting) (r : Role) (capacity : Nat) :
    Coherent w r [] [] (.new capacity w.pair (w.participants.get r)) where
  writer := rfl
  log := ⟨fun _ mem => absurd mem List.not_mem_nil, .nil⟩
  sent := rfl
  issued _ mem := absurd mem List.not_mem_nil
  taken := Nat.zero_le _
  high := by
    rw [List.take_nil]
    rfl
  sound :=
    { matching := by
        show (Battery.new capacity w.pair).matching = (w.scripted 0).matching
        rw [w.scripted_zero]
        rfl
      task := Battery.task_read_new capacity w.pair
      typed := Battery.typed_new capacity w.pair
      dominated := by
        intro t key cell found
        rw [Side.new, Battery.cell?_new] at found
        rw [(TaskState.mem_defaults_of_cell?_initial found).2]
        exact Nat.zero_le _ }
  cells t key := by
    have same : (Side.new capacity w.pair (w.participants.get r)).battery.cell? t key =
        (w.scripted 0).cell? t key := by
      rw [Side.new, w.scripted_zero, Battery.cell?_new, Battery.cell?_new]
    rw [same, List.take_nil, List.append_nil]
    refine .settled (.script fun c written => ?_)
    obtain ⟨x, mem, -⟩ := written
    exact absurd mem List.not_mem_nil

/-- A side after it has taken a message: its clock is not behind where it was, and its battery is still sound. -/
structure Follows (w : Setting) (a a' : Side) : Prop where
  played : a'.played = a.played
  sent : a'.sent = a.sent
  writer : a'.reconciler.clock.writer = a.reconciler.clock.writer
  later : a.reconciler.clock.moment ≤ a'.reconciler.clock.moment
  sound : w.Sound a'.played a'.battery a'.reconciler.clock

namespace Coherent

theorem follow {a' : Side} (h : Coherent w r mine theirs a) (follows : Follows w a a')
    (taken : a'.taken ≤ 2 * theirs.length)
    (high : a'.reconciler.remoteHigh.get? (w.participants.get r.other) =
      (theirs.take ((a'.taken + 1) / 2)).getLast?.map (·.stamp))
    (cells : ∀ t key, Explains ((w.scripted a.played).cell? t key)
      (Written (mine ++ theirs.take (a'.taken / 2)) t key) (a'.awaited theirs t key) (a'.battery.cell? t key)) :
    Coherent w r mine theirs a' where
  writer := follows.writer.trans h.writer
  log := h.log
  sent := follows.sent.trans h.sent
  issued x mem := Nat.le_trans (h.issued x mem) follows.later
  taken := taken
  high := high
  sound := follows.sound
  cells := follows.played ▸ cells

/-- Fields that inputs do not write are as the script has left them. -/
theorem cell?_eq (h : Coherent w r mine theirs a) (log : ExchangeLog (w.participants.get r.other) theirs) {t : TaskId}
    {key : FieldKey} (unlisted : inputType? t key = none) :
    a.battery.cell? t key = (w.scripted a.played).cell? t key := by
  have none : ∀ c, ¬ Written (mine ++ theirs.take (a.taken / 2)) t key c := by
    intro c written
    rcases written_append.mp written with mine | theirs
    · exact h.log.inputType?_of_written mine unlisted
    · exact (log.take _).inputType?_of_written theirs unlisted
  generalize found : a.battery.cell? t key = cell
  have explained := h.cells t key
  rw [found] at explained
  cases explained with
  | settled newest =>
    cases newest with
    | script => rfl
    | input made => exact absurd made (none _)
  | ahead awaits => exact absurd unlisted (log.inputType?_of_written (written_of_awaited awaits))

theorem apart (h : Coherent w r mine theirs a) (log : ExchangeLog (w.participants.get r.other) theirs)
    (scripted : (w.scripted a.played).Scripted) : a.battery.Apart (w.scripted a.played) where
  matching := h.sound.matching
  states t := ⟨h.sound.task t, scripted.task t, fun _ unlisted => h.cell?_eq log unlisted⟩
  typed := h.sound.typed
  typed' := scripted.typed

/-- A task on which participants act is shared, as long as its network field is as the script has left it. -/
theorem isShared {b : Battery} {e : InputEvent} (target : e.target = e.payload.task)
    (task : (b.store.read e.target).task = e.target) (scripted : (w.scripted a.played).Scripted)
    (network : b.cell? e.target "network" = (w.scripted a.played).cell? e.target "network") :
    (b.store.read e.target).isShared = true := by
  have takesInput : e.target.takesInput = true := by
    rw [target]
    cases e.payload <;> rfl
  unfold TaskState.isShared
  rw [task, takesInput, Bool.true_and, decide_eq_true_eq]
  intro isLocal
  obtain ⟨cell, found, value⟩ := TaskState.of_text_eq isLocal (by decide)
  exact scripted.shared e.target cell (network ▸ found) value

/-! ## Moves of the side itself -/

/-- The next command of the script. -/
theorem playNext (h : Coherent w r mine theirs a) (log : ExchangeLog (w.participants.get r.other) theirs)
    (scripted : (w.scripted a.played).Scripted) (shareable : ∀ c ∈ w.script, c.Shareable) :
    Coherent w r mine theirs (a.playNext w.script) := by
  unfold Side.playNext
  cases next : w.script[a.played]? with
  | none => exact h
  | some c =>
    have same := (h.apart log scripted).scripted_eq (shareable c (List.mem_of_getElem? next))
    obtain ⟨later, -⟩ := a.reconciler.clock.moment_observe c.stamp
    refine
      { writer := (StampClock.writer_observe _ _).trans h.writer
        log := h.log
        sent := h.sent
        issued := fun x mem => Nat.le_trans (h.issued x mem) later
        taken := h.taken
        high := h.high
        sound := h.sound.run next same
        cells := fun t key => ?_ }
    show Explains ((w.scripted (a.played + 1)).cell? t key) _ _ ((a.battery.run c).1.cell? t key)
    rw [w.scripted_succ next, Battery.cell?_run, Battery.cell?_run, Battery.scriptedAt, Battery.scriptedAt, same]
    -- Both go through the same writes, all of them with the stamp of the script.
    refine (h.cells t key).scripts fun d mem p made level => ?_
    have byScript : d.stamp.writer = .scenario := by
      rw [← same, ← Battery.scriptedAt] at mem
      obtain ⟨task, made, -⟩ := Battery.mem_scriptedAt mem
      rw [(Battery.scriptWrite task made).1]
      rfl
    have byParticipant : ∃ q, p.stamp.writer = .participant q := by
      rcases made with written | awaits
      · rcases written_append.mp written with written | written
        · exact ⟨_, h.log.writer_eq written⟩
        · exact ⟨_, (log.take _).writer_eq written⟩
      · exact ⟨_, log.writer_eq (written_of_awaited awaits)⟩
    obtain ⟨q, writer⟩ := byParticipant
    rw [level, writer] at byScript
    cases byScript

section

variable {e : InputEvent} {now : SessionTime} (h : Coherent w r mine theirs a) (room : a.reconciler.clock.HasRoom)

include h room

/-- An own input is stamped above every cell of the side. -/
theorem below_exchange (t : TaskId) (key : FieldKey) :
    Below (a.battery.cell? t key) (a.exchange e now).stamp := fun held found =>
  Stamp.lt_of_moment_lt (Nat.lt_of_le_of_lt (h.sound.dominated t key held found) (StampClock.moment_issue room now).1)

/-- The log goes on with what comes of an own input. -/
theorem log_told (origin : e.origin = w.participants.get r) (target : e.target = e.payload.task)
    (unmatched : e.payload.task ≠ .matching) :
    ExchangeLog (w.participants.get r) (mine ++ a.told e now) where
  genuine x mem := by
    rcases List.mem_append.mp mem with mem | mem
    · exact h.log.genuine x mem
    · obtain ⟨rfl, wrote⟩ := mem_told mem
      have writer : (a.exchange e now).stamp.writer = .participant (w.participants.get r) :=
        (a.reconciler.clock.writer_issue now).1.trans (congrArg Writer.participant h.writer)
      exact ⟨origin, target, unmatched, writer, TaskState.inputWrites _ _ _, wrote⟩
  rising := by
    have alone : (a.told e now).Pairwise (fun x y => x.stamp < y.stamp) := by
      unfold Side.told
      split
      · exact .nil
      · exact List.pairwise_singleton _ _
    refine List.pairwise_append.mpr ⟨h.log.rising, alone, fun x mem y mem' => ?_⟩
    obtain ⟨rfl, -⟩ := mem_told mem'
    exact Stamp.lt_of_moment_lt (Nat.lt_of_le_of_lt (h.issued x mem) (StampClock.moment_issue room now).1)

/-- An input of the participant is told to the other side in full, or it has no effect. -/
theorem input (log : ExchangeLog (w.participants.get r.other) theirs) (scripted : (w.scripted a.played).Scripted)
    (origin : e.origin = w.participants.get r) (target : e.target = e.payload.task)
    (unmatched : e.payload.task ≠ .matching) : Coherent w r (mine ++ a.told e now) theirs (a.input e now) := by
  obtain ⟨ahead, level⟩ := StampClock.moment_issue room now
  have writes : InputWrites (a.exchange e now).stamp e.payload (a.exchange e now).changes :=
    TaskState.inputWrites _ _ _
  generalize mutation : (⟨e.target, .localInput e.origin, (a.exchange e now).changes⟩ : Mutation) = m
  have changes : m.changes = (a.exchange e now).changes := mutation ▸ rfl
  have task : m.task = e.target := mutation ▸ rfl
  obtain ⟨clock, high, battery, messages⟩ :=
    Reconciler.onLocalInput_spec (r := a.reconciler) (b := a.battery) unmatched mutation.symm
  have later : a.reconciler.clock.moment ≤ (a.reconciler.clock.issue now).2.moment := by omega
  have sound : w.Sound a.played (a.battery.apply m).1 (a.reconciler.clock.issue now).2 :=
    h.sound.apply (changes ▸ writes) (task ▸ target) later fun _ => Nat.le_of_eq level.symm
  have cells : ∀ t key, (a.battery.apply m).1.cell? t key = ((a.exchange e now).writeAt? t key).elim
      (a.battery.cell? t key) (writeCell (a.battery.cell? t key)) := fun t key =>
    (a.battery.cell?_apply_of_apart (changes ▸ writes.apart) t key).trans (mutation ▸ rfl)
  -- Everything is above the cells there, so that the delta holds all that the input has written.
  have applied : (a.battery.apply m).2.applied = (a.exchange e now).changes := by
    rw [a.battery.applied_apply (changes ▸ writes.apart), changes]
    intro c mem held found
    rw [changes] at mem
    exact writes.stamp_eq mem ▸ h.below_exchange room _ _ held found
  have sent : (a.reconciler.onLocalInput a.battery e now).2.2 = (a.told e now).flatMap Exchange.messages := by
    rw [messages, Outcome.isNoop, applied, Side.told]
    by_cases nothing : (a.exchange e now).changes = []
    · rw [nothing]
      rfl
    · have network : (a.battery.apply m).1.cell? e.target "network" =
          (w.scripted a.played).cell? e.target "network" := by
        rw [← h.cell?_eq log (inputType?_network e.target), cells]
        cases made : (a.exchange e now).writeAt? e.target "network" with
        | none => rfl
        | some c =>
          obtain ⟨-, mem, key⟩ := Exchange.mem_of_writeAt? made
          obtain ⟨v, listed, -⟩ := writes.inputType?_eq mem
          rw [key, inputType?_network] at listed
          cases listed
      have shared := isShared target (sound.task e.target) scripted network
      rw [if_neg nothing, if_neg (by simp [nothing, shared])]
      rfl
  refine
    { writer := ?_
      log := h.log_told room origin target unmatched
      sent := ?_
      issued := fun x mem => ?_
      taken := h.taken
      high := ?_
      sound := ?_
      cells := fun t key => ?_ }
  · show (a.reconciler.onLocalInput a.battery e now).1.clock.writer = _
    rw [clock, (a.reconciler.clock.writer_issue now).2]
    exact h.writer
  · show a.sent ++ (a.reconciler.onLocalInput a.battery e now).2.2 = _
    rw [sent, h.sent, List.flatMap_append]
  · show _ ≤ (a.reconciler.onLocalInput a.battery e now).1.clock.moment
    rw [clock]
    rcases List.mem_append.mp mem with mem | mem
    · exact Nat.le_trans (h.issued x mem) later
    · obtain ⟨rfl, -⟩ := mem_told mem
      exact Nat.le_of_eq level.symm
  · show (a.reconciler.onLocalInput a.battery e now).1.remoteHigh.get? _ = _
    rw [high]
    exact h.high
  · show w.Sound a.played (a.reconciler.onLocalInput a.battery e now).2.1
      (a.reconciler.onLocalInput a.battery e now).1.clock
    rw [battery, clock]
    exact sound
  · show Explains ((w.scripted a.played).cell? t key)
      (Written (mine ++ a.told e now ++ theirs.take (a.taken / 2)) t key) (a.awaited theirs t key)
      ((a.reconciler.onLocalInput a.battery e now).2.1.cell? t key)
    rw [battery, cells]
    refine explains_entered (fun c => written_told) (fun c made => ?_) (h.cells t key)
    have stamp : c.stamp = (a.exchange e now).stamp := writes.stamp_eq (Exchange.mem_of_writeAt? made).2.1
    exact stamp ▸ h.below_exchange room t key

end

/-! ## Moves of the other side -/

/-- A side does not mind what else the other one says. -/
theorem told (h : Coherent w r mine theirs a) (more : List Exchange) : Coherent w r mine (theirs ++ more) a := by
  have taken := h.taken
  have high := h.high
  have inputs : (theirs ++ more).take ((a.taken + 1) / 2) = theirs.take ((a.taken + 1) / 2) :=
    List.take_append_of_le_length (by omega)
  refine
    { h with
      taken := ?_
      high := ?_
      cells := fun t key => explains_told h.taken more (h.cells t key) }
  · rw [List.length_append]
    omega
  · rw [inputs]
    exact high

section

variable {x : Exchange} (h : Coherent w r mine theirs a) (log : ExchangeLog (w.participants.get r.other) theirs)
  (scripted : (w.scripted a.played).Scripted)

include h log

/-- The stamp of the exchange that comes next has not been seen in any cell. -/
theorem stamp_ne (scripted : (w.scripted a.played).Scripted)
    (differ : w.participants.get r ≠ w.participants.get r.other) (next : theirs[a.taken / 2]? = some x) (t : TaskId)
    (key : FieldKey) : (∀ held, (w.scripted a.played).cell? t key = some held → held.stamp ≠ x.stamp) ∧
      ∀ c, Written (mine ++ theirs.take (a.taken / 2)) t key c → c.stamp ≠ x.stamp := by
  have writer := (log.genuine x (List.mem_of_getElem? next)).writer
  constructor
  · intro held found same
    have byScript := scripted.writer t key held found
    rw [same, writer] at byScript
    cases byScript
  · intro c written same
    rcases written_append.mp written with written | written
    · have byOwn := h.log.writer_eq written
      rw [same, writer] at byOwn
      exact differ (Writer.participant.inj byOwn).symm
    · obtain ⟨y, mem, made⟩ := written
      have before := log.lt_of_mem_take mem next
      rw [← (log.genuine y (List.mem_of_mem_take mem)).stamp_eq made, same] at before
      exact Std.lt_irrefl before

include scripted

/-- What taking a delta does to a side. -/
theorem take_delta (mem : x ∈ theirs) {n : Nat} {a' : Side} (taken : a' =
      { a.take (w.participants.get r.other) (.delta x.event.target x.changes) with taken := n }) :
    Follows w a a' ∧ a'.reconciler.remoteHigh = a.reconciler.remoteHigh ∧
      ∀ t key, a'.battery.cell? t key =
        (x.writeAt? t key).elim (a.battery.cell? t key) (writeCell (a.battery.cell? t key)) := by
  have genuine := log.genuine x mem
  have shared := isShared genuine.target (h.sound.task _) scripted (h.cell?_eq log (inputType?_network _))
  obtain ⟨clock, high, battery⟩ :=
    Reconciler.onDelta_spec (r := a.reconciler) (w.participants.get r.other) x.changes shared
  obtain ⟨writer, later, seen⟩ := StampClock.foldl_observe x.changes a.reconciler.clock
  rw [← clock] at writer later seen
  have sound := h.sound.apply (m := ⟨x.event.target, .remoteDelta (w.participants.get r.other), x.changes⟩)
    genuine.writes genuine.target later fun wrote => by
      obtain ⟨c, made⟩ := List.exists_mem_of_ne_nil _ wrote
      exact genuine.writes.stamp_eq made ▸ seen c made
  rw [← battery] at sound
  subst taken
  refine ⟨⟨rfl, rfl, writer, later, sound⟩, high, fun t key => ?_⟩
  show (a.reconciler.onRemoteMessage _ _ _).2.1.cell? t key = _
  rw [battery]
  exact a.battery.cell?_apply_of_apart genuine.writes.apart t key

/-- What taking an input does to a side that has not seen it before. -/
theorem take_forward (mem : x ∈ theirs) (fresh : a.reconciler.isRepeated (w.participants.get r.other) x.stamp = false)
    {n : Nat} {a' : Side} (taken : a' =
      { a.take (w.participants.get r.other) (.forward x.event x.stamp) with taken := n }) :
    Follows w a a' ∧
      a'.reconciler.remoteHigh = a.reconciler.remoteHigh.insert (w.participants.get r.other) x.stamp ∧
      ∀ t key, a'.battery.cell? t key = a.battery.cell? t key ∨
        ∃ c p, a'.battery.cell? t key = writeCell (a.battery.cell? t key) c ∧ x.writeAt? t key = some p ∧
          c.stamp = p.stamp ∧ c.value.Rerun p.value := by
  have genuine := log.genuine x mem
  have shared := isShared genuine.target (h.sound.task _) scripted (h.cell?_eq log (inputType?_network _))
  rw [← genuine.origin] at fresh taken ⊢
  obtain ⟨clock, high, battery⟩ := Reconciler.onForward_spec genuine.unmatched shared
    (genuine.writer.trans (congrArg Writer.participant genuine.origin.symm)) fresh
  obtain ⟨later, seen⟩ := a.reconciler.clock.moment_observe x.stamp
  have writer := a.reconciler.clock.writer_observe x.stamp
  rw [← clock] at writer later seen
  have writes := (a.battery.store.read x.event.target).inputWrites x.event.payload x.stamp
  generalize (a.battery.store.read x.event.target).inputChanges x.event.payload x.stamp = changes at battery writes
  have sound := h.sound.apply (m := ⟨x.event.target, .remoteInput x.event.origin, changes⟩) writes genuine.target
    later fun _ => seen
  rw [← battery] at sound
  subst taken
  refine ⟨⟨rfl, rfl, writer, later, sound⟩, high, fun t key => ?_⟩
  have cells := a.battery.cell?_apply_of_apart (m := ⟨x.event.target, .remoteInput x.event.origin, changes⟩)
    writes.apart t key
  rw [← battery, Mutation.writeAt?] at cells
  by_cases here : x.event.target = t
  · rw [if_pos here] at cells
    cases made : writeAt? changes key with
    | none =>
      rw [made] at cells
      exact Or.inl cells
    | some c =>
      obtain ⟨p, found, stamps, rerun⟩ := writes.exists_rerun genuine.writes genuine.wrote made
      rw [made] at cells
      exact Or.inr ⟨c, p, cells, (if_pos here).trans found, stamps, rerun⟩
  · rw [if_neg here] at cells
    exact Or.inl cells

end

/-- An input comes next. -/
theorem takeInput (h : Coherent w r mine theirs a) (log : ExchangeLog (w.participants.get r.other) theirs)
    (scripted : (w.scripted a.played).Scripted) (differ : w.participants.get r ≠ w.participants.get r.other)
    {x : Exchange} (even : a.taken % 2 = 0) (next : theirs[a.taken / 2]? = some x) :
    Coherent w r mine theirs
      { a.take (w.participants.get r.other) (.forward x.event x.stamp) with taken := a.taken + 1 } := by
  have bound := (List.getElem?_eq_some_iff.mp next).1
  have inputs : (a.taken + 1) / 2 = a.taken / 2 := by omega
  have inputs' : (a.taken + 1 + 1) / 2 = a.taken / 2 + 1 := by omega
  have high := h.high
  rw [inputs] at high
  have fresh : a.reconciler.isRepeated (w.participants.get r.other) x.stamp = false := by
    unfold Reconciler.isRepeated
    rw [high]
    cases last : (theirs.take (a.taken / 2)).getLast? with
    | none => rfl
    | some y =>
      have before := log.lt_of_mem_take (List.mem_of_getLast? last) next
      exact decide_eq_false (fun le => le before)
  obtain ⟨follows, high', cells⟩ := h.take_forward log scripted (List.mem_of_getElem? next) fresh rfl
  refine h.follow follows ?_ ?_ fun t key => ?_
  · show a.taken + 1 ≤ 2 * theirs.length
    omega
  · rw [high', OrderedMap.get?_insert, if_pos rfl]
    show _ = (theirs.take ((a.taken + 1 + 1) / 2)).getLast?.map _
    rw [inputs', List.take_add_one, next, Option.toList_some, List.getLast?_concat]
    rfl
  · obtain ⟨script, fresh⟩ := h.stamp_ne log scripted differ next t key
    exact explains_input even next rfl script fresh
      (fun p => (log.genuine x (List.mem_of_getElem? next)).stamp_eq) (cells t key) (h.cells t key)

/-- A delta comes next. -/
theorem takeDelta (h : Coherent w r mine theirs a) (log : ExchangeLog (w.participants.get r.other) theirs)
    (scripted : (w.scripted a.played).Scripted) (differ : w.participants.get r ≠ w.participants.get r.other)
    {x : Exchange} (odd : a.taken % 2 = 1) (next : theirs[a.taken / 2]? = some x) :
    Coherent w r mine theirs
      { a.take (w.participants.get r.other) (.delta x.event.target x.changes) with taken := a.taken + 1 } := by
  have bound := (List.getElem?_eq_some_iff.mp next).1
  have deltas : (a.taken + 1) / 2 = a.taken / 2 + 1 := by omega
  have inputs : (a.taken + 1 + 1) / 2 = (a.taken + 1) / 2 := by omega
  obtain ⟨follows, high, cells⟩ := h.take_delta log scripted (List.mem_of_getElem? next) rfl
  refine h.follow follows ?_ ?_ fun t key => ?_
  · show a.taken + 1 ≤ 2 * theirs.length
    omega
  · rw [high]
    show _ = (theirs.take ((a.taken + 1 + 1) / 2)).getLast?.map _
    rw [inputs]
    exact h.high
  · obtain ⟨script, fresh⟩ := h.stamp_ne log scripted differ next t key
    rw [cells]
    exact explains_delta odd next rfl script fresh (fun p => (log.genuine x (List.mem_of_getElem? next)).stamp_eq)
      (h.cells t key)

/-- The next message of the other side. -/
theorem takeNext (h : Coherent w r mine theirs a) (log : ExchangeLog (w.participants.get r.other) theirs)
    (scripted : (w.scripted a.played).Scripted) (differ : w.participants.get r ≠ w.participants.get r.other) :
    Coherent w r mine theirs (a.takeNext (w.participants.get r.other) (theirs.flatMap Exchange.messages)) :=
  takeNext_cases h (fun _ even next => h.takeInput log scripted differ even next)
    fun _ odd next => h.takeDelta log scripted differ odd next

/-- An input that has been taken before is known by its stamp. -/
theorem takeInputAgain (h : Coherent w r mine theirs a) (log : ExchangeLog (w.participants.get r.other) theirs)
    (scripted : (w.scripted a.played).Scripted) {x : Exchange} (mem : x ∈ theirs.take ((a.taken + 1) / 2)) :
    Coherent w r mine theirs (a.take (w.participants.get r.other) (.forward x.event x.stamp)) := by
  have genuine := log.genuine x (List.mem_of_mem_take mem)
  have shared := isShared genuine.target (h.sound.task _) scripted (h.cell?_eq log (inputType?_network _))
  have known : a.reconciler.isRepeated (w.participants.get r.other) x.stamp = true := by
    unfold Reconciler.isRepeated
    rw [h.high]
    cases last : (theirs.take ((a.taken + 1) / 2)).getLast? with
    | none =>
      rw [List.getLast?_eq_none_iff.mp last] at mem
      exact absurd mem List.not_mem_nil
    | some y => exact decide_eq_true ((log.take _).le_getLast mem last)
  rw [← genuine.origin] at known ⊢
  obtain ⟨clock, high, battery⟩ := Reconciler.onRepeated_spec shared
    (genuine.writer.trans (congrArg Writer.participant genuine.origin.symm)) known
  have follows : Follows w a (a.take x.event.origin (.forward x.event x.stamp)) := by
    refine ⟨rfl, rfl, congrArg StampClock.writer clock, Nat.le_of_eq (congrArg StampClock.moment clock).symm, ?_⟩
    show w.Sound a.played (a.reconciler.onRemoteMessage _ _ _).2.1 (a.reconciler.onRemoteMessage _ _ _).1.clock
    rw [battery, clock]
    exact h.sound
  refine h.follow follows h.taken ?_ fun t key => ?_
  · show (a.reconciler.onRemoteMessage _ _ _).1.remoteHigh.get? _ = _
    rw [high]
    exact h.high
  · show Explains _ _ (a.awaited theirs t key) ((a.reconciler.onRemoteMessage _ _ _).2.1.cell? t key)
    rw [battery]
    exact h.cells t key

/-- A delta that has been taken before changes no cell but for the sign of a zero. -/
theorem takeDeltaAgain (h : Coherent w r mine theirs a) (log : ExchangeLog (w.participants.get r.other) theirs)
    (scripted : (w.scripted a.played).Scripted) (differ : w.participants.get r ≠ w.participants.get r.other)
    {x : Exchange} (mem : x ∈ theirs.take (a.taken / 2)) :
    Coherent w r mine theirs (a.take (w.participants.get r.other) (.delta x.event.target x.changes)) := by
  obtain ⟨follows, high, cells⟩ := h.take_delta log scripted (List.mem_of_mem_take mem) rfl
  refine h.follow follows h.taken (high ▸ h.high) fun t key => ?_
  show Explains _ _ (a.awaited theirs t key) _
  rw [cells]
  exact explains_again mem (fun c d => h.log.eq_of_written_append (log.take _) differ) (h.cells t key)

/-- A message of the other side that has been taken before. -/
theorem takeAgain (h : Coherent w r mine theirs a) (log : ExchangeLog (w.participants.get r.other) theirs)
    (scripted : (w.scripted a.played).Scripted) (differ : w.participants.get r ≠ w.participants.get r.other) (n : Nat) :
    Coherent w r mine theirs (a.takeAgain (w.participants.get r.other) (theirs.flatMap Exchange.messages) n) := by
  have front : ∀ {i x k}, theirs[i]? = some x → i < k → x ∈ theirs.take k := fun found before =>
    List.mem_of_getElem? ((List.getElem?_take_of_lt before).trans found)
  exact takeAgain_cases h (fun i x before found => h.takeInputAgain log scripted (front found (by omega)))
    (fun i x before found => h.takeDeltaAgain log scripted differ (front found (by omega))) n

end Coherent

end Side

/-! ## Runs -/

namespace Setting

/-- What holds of both sides at any time, when they have sent these exchanges. -/
def Coherent (w : Setting) (logs : Ends (List Exchange)) (x : Ends Side) : Prop :=
  ∀ r, Side.Coherent w r (logs.get r) (logs.get r.other) (x.get r)

/-- What a run must be like for the sides to end up alike: there are two participants, every parameter of the script
is known and no command puts a task into the local network mode, inputs are not about the matching task, and no
clock runs out of counters. -/
structure Admits (w : Setting) (moves : List SideMove) : Prop where
  distinct : w.participants.host ≠ w.participants.guest
  shareable : ∀ c ∈ w.script, c.Shareable
  unmatched : ∀ r captured now payload, SideMove.input r captured now payload ∈ moves → payload.task ≠ .matching
  room : ∀ n r, ((w.after (moves.take n)).get r).reconciler.clock.HasRoom

variable {w : Setting} {logs : Ends (List Exchange)} {x : Ends Side}

theorem scripted_scripted (shareable : ∀ c ∈ w.script, c.Shareable) (k : Nat) : (w.scripted k).Scripted :=
  (Battery.scripted_new 0 w.pair).play fun d mem => shareable d (List.mem_of_mem_take mem)

theorem coherent_start (w : Setting) : w.Coherent ⟨[], []⟩ w.start := by
  intro r
  cases r with
  | host => exact Side.coherent_new w .host w.capacities.host
  | guest => exact Side.coherent_new w .guest w.capacities.guest

/-- A move of one side that tells the other one nothing. -/
theorem Coherent.set (h : w.Coherent logs x) {r : Role} {a : Side}
    (moved : Side.Coherent w r (logs.get r) (logs.get r.other) a) : w.Coherent logs (x.set r a) := by
  intro s
  rw [Ends.get_set]
  by_cases here : r = s
  · subst here
    rw [if_pos rfl]
    exact moved
  · rw [if_neg here]
    exact h s

/-- A move of one side that tells the other one something. -/
theorem Coherent.set_append (h : w.Coherent logs x) {r : Role} {a : Side} {more : List Exchange}
    (moved : Side.Coherent w r (logs.get r ++ more) (logs.get r.other) a) :
    w.Coherent (logs.set r (logs.get r ++ more)) (x.set r a) := by
  intro s
  cases r <;> cases s
  · exact moved
  · exact (h .guest).told more
  · exact (h .host).told more
  · exact moved

/-- Every move keeps both sides coherent. -/
theorem Coherent.perform (h : w.Coherent logs x) (distinct : w.participants.host ≠ w.participants.guest)
    (shareable : ∀ c ∈ w.script, c.Shareable) (room : ∀ r, (x.get r).reconciler.clock.HasRoom) {m : SideMove}
    (unmatched : ∀ r captured now payload, m = .input r captured now payload → payload.task ≠ .matching) :
    ∃ logs', w.Coherent logs' (w.perform x m) := by
  have scripted := scripted_scripted shareable
  cases m with
  | play r => exact ⟨logs, h.set ((h r).playNext (h r.other).log (scripted _) shareable)⟩
  | input r captured now payload =>
    exact ⟨_, h.set_append ((h r).input (room r) (h r.other).log (scripted _) rfl rfl (unmatched _ _ _ _ rfl))⟩
  | deliver r =>
    refine ⟨logs, h.set ?_⟩
    rw [(h r.other).sent]
    exact (h r).takeNext (h r.other).log (scripted _) (participants_ne distinct r)
  | redeliver r n =>
    refine ⟨logs, h.set ?_⟩
    rw [(h r.other).sent]
    exact (h r).takeAgain (h r.other).log (scripted _) (participants_ne distinct r) n

/-- Both sides are coherent throughout a run. -/
theorem coherent_after {moves : List SideMove} (admits : w.Admits moves) (n : Nat) :
    ∃ logs, w.Coherent logs (w.after (moves.take n)) := by
  induction n with
  | zero => exact ⟨_, coherent_start w⟩
  | succ n ih =>
    obtain ⟨logs, h⟩ := ih
    rw [List.take_add_one, after, List.foldl_append, ← after]
    cases next : moves[n]? with
    | none => exact ⟨logs, h⟩
    | some m =>
      refine h.perform admits.distinct admits.shareable (admits.room n) fun r captured now payload same => ?_
      exact admits.unmatched r captured now payload (same ▸ List.mem_of_getElem? next)

/-- When everything has been played and taken, what the two sides have in a field is alike. -/
theorem Coherent.alike (h : w.Coherent logs x) (distinct : w.participants.host ≠ w.participants.guest)
    (settled : w.IsSettled x) (t : TaskId) (key : FieldKey) :
    Option.Rel Cell.Alike (x.host.battery.cell? t key) (x.guest.battery.cell? t key) := by
  -- What a side has taken is all that the other one has sent.
  have newest : ∀ r, Newest ((w.scripted w.script.length).cell? t key) (Written (logs.get r ++ logs.get r.other) t key)
      ((x.get r).battery.cell? t key) := by
    intro r
    obtain ⟨played, taken⟩ := settled r
    rw [(h r.other).sent, Exchange.length_messages] at taken
    have cells := (h r).cells t key
    rw [Side.awaited_even (by omega), played, taken, Nat.mul_div_cancel_left _ (by decide), List.take_length] at cells
    exact cells.newest
  refine (newest .host).agree ((newest .guest).congr fun c => ?_) fun c d first second same => ?_
  · rw [written_append, written_append]
    exact or_comm
  · exact (h .host).log.eq_of_written_append (h .guest).log distinct first second same

/-- **The two sides converge.**  When both have played the whole script and have taken every message, each field of
each task is there on both sides or on none, with the same stamp and the same value bit by bit, where the coordinates
of a point may differ in the sign of a zero. -/
theorem converges_after {moves : List SideMove} (admits : w.Admits moves) (settled : w.IsSettled (w.after moves))
    (t : TaskId) (key : FieldKey) :
    Option.Rel Cell.Alike ((w.after moves).host.battery.cell? t key) ((w.after moves).guest.battery.cell? t key) := by
  obtain ⟨logs, h⟩ := coherent_after admits moves.length
  rw [List.take_length] at h
  exact h.alike admits.distinct settled t key

/-- Two participants, and a script that starts the tracking task and sets its cursor to zero. -/
def zeroes : Setting where
  participants := ⟨⟨1⟩, ⟨2⟩⟩
  capacities := ⟨0, 0⟩
  script := [⟨0, 0, .act (.task .tracking) .start, 1, 0⟩, ⟨1, 0, .set (.task .tracking) "cursor" "-0.0,0.0", 2, 1⟩]

/-- The host moves the cursor by zero after it has run the script.  The guest takes the input before it sets the
cursor, and the delta after that and then once more. -/
def zeroRun : List SideMove :=
  [.play .host, .play .host, .play .guest, .input .host ⟨2000⟩ ⟨2000⟩ (.trackingMove ⟨0x8000000000000000⟩ .zero),
    .deliver .guest, .play .guest, .deliver .guest, .redeliver .guest 1]

theorem admits_zeroRun : zeroes.Admits zeroRun where
  distinct := by decide
  shareable c mem := by
    have known : TaskId.isKnownParameter .tracking "cursor" = true := by decide +kernel
    simp only [zeroes, List.mem_cons, List.not_mem_nil, or_false] at mem
    rcases mem with rfl | rfl
    · exact ⟨nofun, nofun⟩
    · constructor
      · intro t key raw same
        cases same
        exact known
      · intro t raw same
        simp at same
  unmatched r captured now payload mem := by
    simp only [zeroRun, List.mem_cons, List.not_mem_nil, or_false, reduceCtorEq, false_or] at mem
    cases mem
    decide
  room := by
    have within : ∀ n ≤ zeroRun.length, ((zeroes.after (zeroRun.take n)).get .host).reconciler.clock.HasRoom ∧
        ((zeroes.after (zeroRun.take n)).get .guest).reconciler.clock.HasRoom := by
      decide +kernel
    exact forall_take (P := fun moves => ∀ r, ((zeroes.after moves).get r).reconciler.clock.HasRoom)
      fun n upTo => Role.forall_of .host (within n upTo).1 (within n upTo).2

theorem isSettled_zeroRun : zeroes.IsSettled (zeroes.after zeroRun) := by
  have settled : (zeroes.after zeroRun).host.played = 2 ∧ (zeroes.after zeroRun).guest.played = 2 ∧
      (zeroes.after zeroRun).host.taken = (zeroes.after zeroRun).guest.sent.length ∧
      (zeroes.after zeroRun).guest.taken = (zeroes.after zeroRun).host.sent.length := by
    decide +kernel
  obtain ⟨host, guest, taken, taken'⟩ := settled
  intro r
  cases r with
  | host => exact ⟨host, taken⟩
  | guest => exact ⟨guest, taken'⟩

/-- At the end of the run the two sides have the same fields and stamps. -/
theorem converges_after_zeroRun : zeroes.Admits zeroRun ∧ zeroes.IsSettled (zeroes.after zeroRun) ∧
    ∀ t key, Option.Rel Cell.Alike ((zeroes.after zeroRun).host.battery.cell? t key)
      ((zeroes.after zeroRun).guest.battery.cell? t key) :=
  ⟨admits_zeroRun, isSettled_zeroRun, converges_after admits_zeroRun isSettled_zeroRun⟩

/-- The sign of a zero may differ: where the input was made the cursor is at `-0`, and on the other side, where the
input came to `0`, the delta does not replace it. -/
theorem not_identical_zeroRun : ¬ ∀ (w : Setting) (moves : List SideMove), w.Admits moves →
    w.IsSettled (w.after moves) → ∀ t key,
      (w.after moves).host.battery.cell? t key = (w.after moves).guest.battery.cell? t key := by
  intro claim
  have differ : (zeroes.after zeroRun).host.battery.cell? .tracking "cursor" ≠
      (zeroes.after zeroRun).guest.battery.cell? .tracking "cursor" := by
    decide +kernel
  exact differ (claim zeroes zeroRun admits_zeroRun isSettled_zeroRun .tracking "cursor")

end Setting

end Tandem
