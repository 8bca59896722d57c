import Tandem.Proofs.Reconcile.Sides
/-!
# What the sides tell each other

An input that is told to the other side is told in two messages: the input itself, and the delta with what it has
written.  An `Exchange` is such a pair, and all that a side sends is a list of exchanges with rising stamps
(`ExchangeLog`).  So two writes to one field with one stamp are one and the same write, whoever made them.

Of the messages of an exchange the input comes first.  What it writes where it is run once more is put right by the
delta, so that for a time a cell may show more than what has been told in full (`Side.awaited`).  The lemmas
`Side.explains_input`, `Side.explains_delta` and `Side.explains_again` say how a cell goes on as the messages come.

The last part is about a single battery: what holds of it at any time (`Sound`), and that applying the writes of
an input keeps it, whoever made the input.
-/

namespace Tandem

/-- An input that is told to the other side, with what it has written. -/
structure Exchange where
  event : InputEvent
  stamp : Stamp
  changes : List FieldChange

namespace Exchange

/-- The messages of an exchange. -/
def messages (x : Exchange) : List SyncMessage :=
  [.forward x.event x.stamp, .delta x.event.target x.changes]

/-- What an exchange has written to a field. -/
def writeAt? (x : Exchange) (t : TaskId) (key : FieldKey) : Option FieldChange :=
  if x.event.target = t then Tandem.writeAt? x.changes key else none

/-- The exchange is about an input of a participant. -/
structure Genuine (p : ParticipantId) (x : Exchange) : Prop where
  origin : x.event.origin = p
  target : x.event.target = x.event.payload.task
  unmatched : x.event.payload.task ≠ .matching
  writer : x.stamp.writer = .participant p
  writes : InputWrites x.stamp x.event.payload x.changes
  wrote : x.changes ≠ []

variable {x : Exchange} {t : TaskId} {key : FieldKey} {c : FieldChange} {p : ParticipantId}

theorem mem_of_writeAt? (h : x.writeAt? t key = some c) : x.event.target = t ∧ c ∈ x.changes ∧ c.key = key := by
  unfold writeAt? at h
  split at h
  · rename_i here
    exact ⟨here, Tandem.mem_of_writeAt? h⟩
  · cases h

theorem Genuine.stamp_eq (genuine : x.Genuine p) (h : x.writeAt? t key = some c) : c.stamp = x.stamp :=
  genuine.writes.stamp_eq (mem_of_writeAt? h).2.1

/-- The messages of exchanges come in pairs. -/
theorem getElem?_messages (xs : List Exchange) (i : Nat) :
    (xs.flatMap messages)[2 * i]? = xs[i]?.map (fun x => .forward x.event x.stamp) ∧
      (xs.flatMap messages)[2 * i + 1]? = xs[i]?.map (fun x => .delta x.event.target x.changes) := by
  induction xs generalizing i with
  | nil => exact ⟨rfl, rfl⟩
  | cons x rest ih =>
    cases i with
    | zero => exact ⟨rfl, rfl⟩
    | succ i => exact ih i

theorem length_messages (xs : List Exchange) : (xs.flatMap messages).length = 2 * xs.length := by
  induction xs with
  | nil => rfl
  | cons x rest ih =>
    rw [List.flatMap_cons, List.length_append, ih, List.length_cons]
    show 2 + 2 * rest.length = 2 * (rest.length + 1)
    omega

end Exchange

/-- The exchange of an input that a side takes now, if it has an effect. -/
def Side.exchange (a : Side) (e : InputEvent) (now : SessionTime) : Exchange :=
  ⟨e, (a.reconciler.clock.issue now).1,
    (a.battery.store.read e.target).inputChanges e.payload (a.reconciler.clock.issue now).1⟩

/-- The exchanges that come of an input: one, or none if the input has no effect. -/
def Side.told (a : Side) (e : InputEvent) (now : SessionTime) : List Exchange :=
  if (a.exchange e now).changes = [] then [] else [a.exchange e now]

/-- A field has been written by one of the exchanges. -/
def Written (xs : List Exchange) (t : TaskId) (key : FieldKey) (c : FieldChange) : Prop :=
  ∃ x ∈ xs, x.writeAt? t key = some c

theorem written_append {xs ys : List Exchange} {t : TaskId} {key : FieldKey} {c : FieldChange} :
    Written (xs ++ ys) t key c ↔ Written xs t key c ∨ Written ys t key c := by
  simp only [Written, List.mem_append, or_and_right, exists_or]

theorem written_singleton {x : Exchange} {t : TaskId} {key : FieldKey} {c : FieldChange} :
    Written [x] t key c ↔ x.writeAt? t key = some c := by
  simp only [Written, List.mem_singleton, exists_eq_left]

theorem written_concat {xs : List Exchange} {x : Exchange} {t : TaskId} {key : FieldKey} {c : FieldChange} :
    Written (xs ++ [x]) t key c ↔ Written xs t key c ∨ x.writeAt? t key = some c := by
  rw [written_append, written_singleton]

theorem mem_told {a : Side} {e : InputEvent} {now : SessionTime} {x : Exchange} (mem : x ∈ a.told e now) :
    x = a.exchange e now ∧ x.changes ≠ [] := by
  unfold Side.told at mem
  split at mem
  · exact absurd mem List.not_mem_nil
  · rename_i wrote
    cases List.mem_singleton.mp mem
    exact ⟨rfl, wrote⟩

theorem written_told {a : Side} {e : InputEvent} {now : SessionTime} {t : TaskId} {key : FieldKey} {c : FieldChange} :
    Written (a.told e now) t key c ↔ (a.exchange e now).writeAt? t key = some c := by
  unfold Side.told
  by_cases nothing : (a.exchange e now).changes = []
  · rw [if_pos nothing]
    refine iff_of_false (fun ⟨x, mem, _⟩ => List.not_mem_nil mem) fun made => ?_
    have mem := (Exchange.mem_of_writeAt? made).2.1
    rw [nothing] at mem
    exact List.not_mem_nil mem
  · rw [if_neg nothing]
    exact written_singleton

/-- The exchanges of a participant, in order. -/
structure ExchangeLog (p : ParticipantId) (xs : List Exchange) : Prop where
  genuine : ∀ x ∈ xs, x.Genuine p
  rising : xs.Pairwise (fun x y => x.stamp < y.stamp)

namespace ExchangeLog

variable {p q : ParticipantId} {xs ys : List Exchange} {t : TaskId} {key : FieldKey} {c d : FieldChange}

theorem eq_of_stamp (log : ExchangeLog p xs) {x y : Exchange} (memX : x ∈ xs) (memY : y ∈ xs)
    (same : x.stamp = y.stamp) : x = y := by
  obtain ⟨i, hi, rfl⟩ := List.mem_iff_getElem.mp memX
  obtain ⟨j, hj, rfl⟩ := List.mem_iff_getElem.mp memY
  have rising := List.pairwise_iff_getElem.mp log.rising
  rcases Nat.lt_trichotomy i j with before | rfl | behind
  · exact absurd (rising i j hi hj before) (same ▸ Std.lt_irrefl)
  · rfl
  · exact absurd (rising j i hj hi behind) (same ▸ Std.lt_irrefl)

/-- Of the first exchanges none is stamped like a later one. -/
theorem lt_of_mem_take (log : ExchangeLog p xs) {n : Nat} {x y : Exchange} (memX : x ∈ xs.take n)
    (found : xs[n]? = some y) : x.stamp < y.stamp := by
  obtain ⟨i, hi, rfl⟩ := List.mem_iff_getElem.mp memX
  rw [List.length_take] at hi
  obtain ⟨hn, rfl⟩ := List.getElem?_eq_some_iff.mp found
  rw [List.getElem_take]
  exact List.pairwise_iff_getElem.mp log.rising i n (by omega) hn (by omega)

/-- The last of the exchanges has the highest stamp. -/
theorem le_getLast (log : ExchangeLog p xs) {x y : Exchange} (mem : x ∈ xs) (last : xs.getLast? = some y) :
    x.stamp ≤ y.stamp := by
  obtain ⟨before, rfl⟩ := List.getLast?_eq_some_iff.mp last
  rcases List.mem_append.mp mem with mem | mem
  · exact Std.le_of_lt ((List.pairwise_append.mp log.rising).2.2 x mem y List.mem_cons_self)
  · rw [List.mem_singleton.mp mem]
    exact Std.le_refl _

theorem writer_eq (log : ExchangeLog p xs) (h : Written xs t key c) : c.stamp.writer = .participant p := by
  obtain ⟨x, mem, found⟩ := h
  rw [(log.genuine x mem).stamp_eq found]
  exact (log.genuine x mem).writer

/-- One stamp, one write. -/
theorem eq_of_written (log : ExchangeLog p xs) (first : Written xs t key c) (second : Written xs t key d)
    (same : c.stamp = d.stamp) : c = d := by
  obtain ⟨x, memX, foundX⟩ := first
  obtain ⟨y, memY, foundY⟩ := second
  rw [(log.genuine x memX).stamp_eq foundX, (log.genuine y memY).stamp_eq foundY] at same
  have eq := log.eq_of_stamp memX memY same
  rw [eq, foundY] at foundX
  exact (Option.some.inj foundX).symm

/-- One stamp, one write, also if two participants write. -/
theorem eq_of_written_append (log : ExchangeLog p xs) (log' : ExchangeLog q ys) (differ : p ≠ q)
    (first : Written (xs ++ ys) t key c) (second : Written (xs ++ ys) t key d) (same : c.stamp = d.stamp) :
    c = d := by
  have apart : ∀ {c d : FieldChange}, Written xs t key c → Written ys t key d → c.stamp ≠ d.stamp := by
    intro c d first second same
    have writer := log.writer_eq first
    rw [same, log'.writer_eq second] at writer
    exact differ (Writer.participant.inj writer).symm
  rw [written_append] at first second
  rcases first with first | first <;> rcases second with second | second
  · exact log.eq_of_written first second same
  · exact absurd same (apart first second)
  · exact absurd same.symm (apart second first)
  · exact log'.eq_of_written first second same

theorem take (log : ExchangeLog p xs) (n : Nat) : ExchangeLog p (xs.take n) :=
  ⟨fun x mem => log.genuine x (List.mem_of_mem_take mem), log.rising.sublist (List.take_sublist n xs)⟩

/-- Inputs write only the fields that are listed for them. -/
theorem inputType?_of_written (log : ExchangeLog p xs) (h : Written xs t key c) : inputType? t key ≠ none := by
  obtain ⟨x, mem, found⟩ := h
  obtain ⟨rfl, made, rfl⟩ := Exchange.mem_of_writeAt? found
  obtain ⟨v, listed, -⟩ := (log.genuine x mem).writes.inputType?_eq made
  rw [(log.genuine x mem).target, listed]
  exact Option.some_ne_none v

end ExchangeLog

/-! ## Cells while messages are under way -/

namespace Side

/-- The write to a field that the next message is to bring, if it is a delta. -/
def awaited (a : Side) (theirs : List Exchange) (t : TaskId) (key : FieldKey) : Option FieldChange :=
  if a.taken % 2 = 1 then (theirs[a.taken / 2]?).bind (fun x => x.writeAt? t key) else none

theorem awaited_even {a : Side} (even : a.taken % 2 = 0) (theirs : List Exchange) (t : TaskId) (key : FieldKey) :
    a.awaited theirs t key = none := if_neg (by omega)

theorem awaited_odd {a : Side} (odd : a.taken % 2 = 1) {theirs : List Exchange} {x : Exchange}
    (next : theirs[a.taken / 2]? = some x) (t : TaskId) (key : FieldKey) :
    a.awaited theirs t key = x.writeAt? t key := by
  rw [awaited, if_pos odd, next]
  rfl

/-- What is awaited is a write of the other side's log. -/
theorem written_of_awaited {a : Side} {theirs : List Exchange} {t : TaskId} {key : FieldKey} {c : FieldChange}
    (h : a.awaited theirs t key = some c) : Written theirs t key c := by
  unfold awaited at h
  split at h
  · obtain ⟨x, found, made⟩ := Option.bind_eq_some_iff.mp h
    exact ⟨x, List.mem_of_getElem? found, made⟩
  · cases h

section

variable {a b : Side} {mine theirs : List Exchange} {x : Exchange} {t : TaskId} {key : FieldKey}
  {scripted cell cell' : Option Cell}

/-- The next message is an input or a delta of an exchange, if there is one. -/
theorem takeNext_cases {motive : Side → Prop} {q : ParticipantId} (still : motive a)
    (input : ∀ x, a.taken % 2 = 0 → theirs[a.taken / 2]? = some x →
      motive { a.take q (.forward x.event x.stamp) with taken := a.taken + 1 })
    (delta : ∀ x, a.taken % 2 = 1 → theirs[a.taken / 2]? = some x →
      motive { a.take q (.delta x.event.target x.changes) with taken := a.taken + 1 }) :
    motive (a.takeNext q (theirs.flatMap Exchange.messages)) := by
  unfold takeNext
  obtain ⟨forward, second⟩ := Exchange.getElem?_messages theirs (a.taken / 2)
  rcases Nat.mod_two_eq_zero_or_one a.taken with even | odd
  · rw [show 2 * (a.taken / 2) = a.taken by omega] at forward
    rw [forward]
    cases next : theirs[a.taken / 2]? with
    | none => exact still
    | some x => exact input x even next
  · rw [show 2 * (a.taken / 2) + 1 = a.taken by omega] at second
    rw [second]
    cases next : theirs[a.taken / 2]? with
    | none => exact still
    | some x => exact delta x odd next

/-- A message that has been taken before is an input or a delta of an exchange. -/
theorem takeAgain_cases {motive : Side → Prop} {q : ParticipantId} (still : motive a)
    (input : ∀ i x, 2 * i < a.taken → theirs[i]? = some x → motive (a.take q (.forward x.event x.stamp)))
    (delta : ∀ i x, 2 * i + 1 < a.taken → theirs[i]? = some x →
      motive (a.take q (.delta x.event.target x.changes))) (n : Nat) :
    motive (a.takeAgain q (theirs.flatMap Exchange.messages) n) := by
  unfold takeAgain
  obtain ⟨forward, second⟩ := Exchange.getElem?_messages theirs (n / 2)
  rcases Nat.mod_two_eq_zero_or_one n with even | odd
  · rw [show 2 * (n / 2) = n by omega] at forward
    rw [forward]
    cases found : theirs[n / 2]? with
    | none => exact still
    | some x =>
      show motive (if n < a.taken then _ else a)
      split
      · exact input (n / 2) x (by omega) found
      · exact still
  · rw [show 2 * (n / 2) + 1 = n by omega] at second
    rw [second]
    cases found : theirs[n / 2]? with
    | none => exact still
    | some x =>
      show motive (if n < a.taken then _ else a)
      split
      · exact delta (n / 2) x (by omega) found
      · exact still

/-- The other side says more. -/
theorem explains_told (taken : a.taken ≤ 2 * theirs.length) (more : List Exchange)
    (before : Explains scripted (Written (mine ++ theirs.take (a.taken / 2)) t key) (a.awaited theirs t key) cell) :
    Explains scripted (Written (mine ++ (theirs ++ more).take (a.taken / 2)) t key)
      (a.awaited (theirs ++ more) t key) cell := by
  have deltas : (theirs ++ more).take (a.taken / 2) = theirs.take (a.taken / 2) :=
    List.take_append_of_le_length (by omega)
  have awaited : a.awaited (theirs ++ more) t key = a.awaited theirs t key := by
    unfold Side.awaited
    by_cases odd : a.taken % 2 = 1
    · rw [if_pos odd, if_pos odd, List.getElem?_append_left (by omega)]
    · rw [if_neg odd, if_neg odd]
  rw [deltas, awaited]
  exact before

/-- An own input that is told in `more`, and whose write is stamped above the cell. -/
theorem explains_entered {more known : List Exchange} {write awaited : Option FieldChange}
    (told : ∀ c, Written more t key c ↔ write = some c) (above : ∀ c, write = some c → Below cell c.stamp)
    (before : Explains scripted (Written (mine ++ known) t key) awaited cell) :
    Explains scripted (Written (mine ++ more ++ known) t key) awaited (write.elim cell (writeCell cell)) := by
  have written : ∀ c, Written (mine ++ known) t key c ∨ write = some c ↔ Written (mine ++ more ++ known) t key c := by
    intro c
    rw [written_append, written_append, written_append, told]
    exact or_right_comm
  cases write with
  | none =>
    refine before.congr fun c => ?_
    rw [← written]
    exact (or_iff_left (Option.some_ne_none c).symm).symm
  | some c =>
    have here := above c rfl
    obtain ⟨script, latest⟩ := before.below here
    refine .settled ((Newest.own here script latest).congr fun d => ?_)
    rw [← written, Option.some.injEq, eq_comm (a := c)]

/-- An input of the other side comes next, and writes here what it wrote there, up to the values, or nothing. -/
theorem explains_input (even : a.taken % 2 = 0) (next : theirs[a.taken / 2]? = some x)
    (taken : b.taken = a.taken + 1) (script : ∀ held, scripted = some held → held.stamp ≠ x.stamp)
    (fresh : ∀ c, Written (mine ++ theirs.take (a.taken / 2)) t key c → c.stamp ≠ x.stamp)
    (stamped : ∀ p, x.writeAt? t key = some p → p.stamp = x.stamp)
    (after : cell' = cell ∨ ∃ c p, cell' = writeCell cell c ∧ x.writeAt? t key = some p ∧ c.stamp = p.stamp ∧
      c.value.Rerun p.value)
    (before : Explains scripted (Written (mine ++ theirs.take (a.taken / 2)) t key) (a.awaited theirs t key) cell) :
    Explains scripted (Written (mine ++ theirs.take (b.taken / 2)) t key) (b.awaited theirs t key) cell' := by
  have half : b.taken / 2 = a.taken / 2 := by omega
  rw [awaited_even even] at before
  rw [awaited_odd (show b.taken % 2 = 1 by omega) (half ▸ next), half]
  rcases after with same | ⟨c, p, same, made, stamps, rerun⟩
  · rw [same]
    exact .settled before.newest
  · have stamp := stamped p made
    rw [same, made]
    exact before.forward stamps rerun (stamp ▸ script) (stamp ▸ fresh)

/-- A delta of the other side comes next. -/
theorem explains_delta (odd : a.taken % 2 = 1) (next : theirs[a.taken / 2]? = some x)
    (taken : b.taken = a.taken + 1) (script : ∀ held, scripted = some held → held.stamp ≠ x.stamp)
    (fresh : ∀ c, Written (mine ++ theirs.take (a.taken / 2)) t key c → c.stamp ≠ x.stamp)
    (stamped : ∀ p, x.writeAt? t key = some p → p.stamp = x.stamp)
    (before : Explains scripted (Written (mine ++ theirs.take (a.taken / 2)) t key) (a.awaited theirs t key) cell) :
    Explains scripted (Written (mine ++ theirs.take (b.taken / 2)) t key) (b.awaited theirs t key)
      ((x.writeAt? t key).elim cell (writeCell cell)) := by
  have written : ∀ c, Written (mine ++ theirs.take (a.taken / 2)) t key c ∨ x.writeAt? t key = some c ↔
      Written (mine ++ theirs.take (b.taken / 2)) t key c := by
    intro c
    rw [show b.taken / 2 = a.taken / 2 + 1 by omega, List.take_add_one, next, Option.toList_some,
      ← List.append_assoc, written_concat]
  rw [awaited_odd odd next] at before
  rw [awaited_even (show b.taken % 2 = 0 by omega)]
  refine .settled ?_
  cases made : x.writeAt? t key with
  | none =>
    rw [made] at before
    refine before.newest.congr fun c => ?_
    rw [← written, made]
    exact (or_iff_left (Option.some_ne_none c).symm).symm
  | some p =>
    have stamp := stamped p made
    rw [made] at before
    refine (before.delta (stamp ▸ script) (stamp ▸ fresh)).congr fun c => ?_
    rw [← written, made, Option.some.injEq, eq_comm (a := p)]

/-- A delta that has been taken comes again. -/
theorem explains_again {awaited : Option FieldChange} (mem : x ∈ theirs)
    (unique : ∀ c d, Written (mine ++ theirs) t key c → Written (mine ++ theirs) t key d → c.stamp = d.stamp → c = d)
    (before : Explains scripted (Written (mine ++ theirs) t key) awaited cell) :
    Explains scripted (Written (mine ++ theirs) t key) awaited ((x.writeAt? t key).elim cell (writeCell cell)) := by
  cases made : x.writeAt? t key with
  | none => exact before
  | some c =>
    have written : Written (mine ++ theirs) t key c := written_append.mpr (Or.inr ⟨x, mem, made⟩)
    exact before.again written fun d written' same => unique d c written' written same

end

end Side

/-! ## A battery and a clock -/

namespace Setting

variable (w : Setting)

/-- The battery on which nothing but the first commands of the script has been run. -/
def scripted (k : Nat) : Battery := (Battery.new 0 w.pair).play (w.script.take k)

theorem scripted_zero : w.scripted 0 = Battery.new 0 w.pair := by
  rw [scripted, List.take_zero]
  rfl

theorem scripted_succ {k : Nat} {c : ScenarioCommand} (next : w.script[k]? = some c) :
    w.scripted (k + 1) = ((w.scripted k).run c).1 := by
  obtain ⟨h, rfl⟩ := List.getElem?_eq_some_iff.mp next
  rw [scripted, Battery.play, List.take_succ_eq_append_getElem h, List.foldl_append]
  rfl

/-- What holds of the battery of a side that has run the first `k` commands, whatever the inputs were. -/
structure Sound (k : Nat) (b : Battery) (clock : StampClock) : Prop where
  matching : b.matching = (w.scripted k).matching
  task : ∀ t, (b.store.read t).task = t
  typed : b.Typed
  /-- The clock is not behind any cell. -/
  dominated : ∀ t key cell, b.cell? t key = some cell → cell.stamp.moment ≤ clock.moment

variable {w} {k : Nat} {b : Battery} {clock clock' : StampClock}

theorem Sound.mono (h : w.Sound k b clock) (later : clock.moment ≤ clock'.moment) : w.Sound k b clock' :=
  ⟨h.matching, h.task, h.typed, fun t key cell found => Nat.le_trans (h.dominated t key cell found) later⟩

/-- The writes of an input keep a battery sound, if the clock has seen their stamp. -/
theorem Sound.apply (h : w.Sound k b clock) {m : Mutation} {stamp : Stamp} {payload : InputPayload}
    (writes : InputWrites stamp payload m.changes) (target : m.task = payload.task)
    (later : clock.moment ≤ clock'.moment) (seen : m.changes ≠ [] → stamp.moment ≤ clock'.moment) :
    w.Sound k (b.apply m).1 clock' where
  matching := h.matching
  task t := (b.task_read_apply m t).trans (h.task t)
  typed := by
    refine h.typed.write (b.cell?_apply m) fun t key c mem first start => ?_
    unfold Mutation.writesAt at mem
    split at mem
    · rename_i here
      obtain ⟨made, key⟩ := List.mem_filter.mp mem
      obtain ⟨v, listed, type⟩ := writes.inputType?_eq made
      rw [← of_decide_eq_true key] at start
      rw [← target, here] at listed
      exact FieldValue.sameType_trans (sameType_of_inputType? start listed) type
    · exact absurd mem List.not_mem_nil
  dominated t key cell found := by
    rw [b.cell?_apply] at found
    rcases foldl_writeCell_origin found with before | ⟨c, mem, rfl⟩
    · exact Nat.le_trans (h.dominated t key cell before) later
    · unfold Mutation.writesAt at mem
      split at mem
      · have made := (List.mem_filter.mp mem).1
        rw [writes.stamp_eq made]
        exact seen (List.ne_nil_of_mem made)
      · exact absurd mem List.not_mem_nil

/-- The next command keeps a battery sound. -/
theorem Sound.run (h : w.Sound k b clock) {c : ScenarioCommand} (next : w.script[k]? = some c)
    (same : b.scripted c = (w.scripted k).scripted c) : w.Sound (k + 1) (b.run c).1 (clock.observe c.stamp) where
  matching := by
    rw [Battery.matching_run, same, w.scripted_succ next, Battery.matching_run]
  task t := (b.task_read_run c t).trans (h.task t)
  typed := h.typed.run h.task c
  dominated t key cell found := by
    obtain ⟨later, seen⟩ := clock.moment_observe c.stamp
    rw [b.cell?_run] at found
    rcases foldl_writeCell_origin found with before | ⟨d, mem, rfl⟩
    · exact Nat.le_trans (h.dominated t key cell before) later
    · obtain ⟨task, made, -⟩ := Battery.mem_scriptedAt mem
      rw [(Battery.scriptWrite task made).1]
      exact seen

end Setting

end Tandem
