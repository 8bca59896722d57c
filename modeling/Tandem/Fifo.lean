/-!
# First in, first out

Frames, messages, inputs and notifications wait in queues: they are added at one end and leave at the other.
A `Fifo` holds its oldest elements in order and its newest ones in reverse, so that adding an element does
not go through those that wait already.  It counts its elements as it goes.

The view of a queue is `toList`, the elements from the oldest to the newest.  Every operation comes with a
lemma that says what it does to that list, so nothing else has to be known about the two halves.
-/

namespace Tandem

/-- A queue. -/
structure Fifo (α : Type) where
  /-- The oldest elements, oldest first. -/
  front : List α
  /-- The elements after those, newest first. -/
  back : List α
  /-- The number of elements. -/
  size : Nat
  /-- Both halves count. -/
  counted : size = front.length + back.length

namespace Fifo

variable {α : Type}

/-- The elements, oldest first. -/
def toList (q : Fifo α) : List α := q.front ++ q.back.reverse

/-- The queue without elements. -/
def empty : Fifo α := ⟨[], [], 0, rfl⟩

/-- The queue of a list, whose first element is the oldest. -/
def ofList (l : List α) : Fifo α := ⟨l, [], l.length, rfl⟩

/-- Whether nothing waits. -/
def isEmpty (q : Fifo α) : Bool := q.size == 0

/-- Adds an element. -/
def push (q : Fifo α) (a : α) : Fifo α :=
  ⟨q.front, a :: q.back, q.size + 1, by rw [q.counted, List.length_cons, Nat.add_assoc]⟩

/-- Adds the elements of a list, the first of them first. -/
def append (q : Fifo α) (l : List α) : Fifo α := l.foldl push q

/-- The newest element. -/
def newest? (q : Fifo α) : Option α :=
  match q.back with
  | a :: _ => some a
  | [] => q.front.getLast?

/-- The elements after the first `n`, found from the newer end. -/
def after (q : Fifo α) (n : Nat) : List α := q.front.drop n ++ (q.back.take (q.size - n)).reverse

/-- Removes the oldest element. -/
def dropOldest (q : Fifo α) : Fifo α :=
  match q with
  | ⟨_ :: rest, back, size, counted⟩ =>
    ⟨rest, back, size - 1, by rw [counted, List.length_cons]; omega⟩
  | ⟨[], back, _, _⟩ => ofList (back.reverse.drop 1)

/-- Removes the oldest elements as long as they satisfy `p`. -/
def dropWhile (p : α → Bool) (q : Fifo α) : Fifo α :=
  match h : q.front.dropWhile p with
  | [] => ofList (q.back.reverse.dropWhile p)
  | a :: rest =>
    ⟨a :: rest, q.back, q.size - (q.front.takeWhile p).length, by
      have whole := congrArg List.length (List.takeWhile_append_dropWhile (p := p) (l := q.front))
      rw [h, List.length_append] at whole
      have := q.counted
      omega⟩

/-! ## The operations as list operations -/

@[simp] theorem toList_empty : (empty : Fifo α).toList = [] := rfl

@[simp] theorem toList_ofList (l : List α) : (ofList l).toList = l := by simp [toList, ofList]

@[simp] theorem toList_push (q : Fifo α) (a : α) : (q.push a).toList = q.toList ++ [a] := by
  simp [toList, push]

@[simp] theorem toList_append (q : Fifo α) (l : List α) : (q.append l).toList = q.toList ++ l := by
  unfold append
  induction l generalizing q with
  | nil => simp
  | cons a rest ih => simp [ih]

/-- The count is the length of the list. -/
theorem size_eq_length (q : Fifo α) : q.size = q.toList.length := by simp [toList, q.counted]

/-- A queue is empty exactly when its list is. -/
theorem isEmpty_iff (q : Fifo α) : q.isEmpty = true ↔ q.toList = [] := by
  simp [isEmpty, size_eq_length]

/-- The newest element is the last one of the list. -/
theorem newest?_eq (q : Fifo α) : q.newest? = q.toList.getLast? := by
  obtain ⟨front, back, size, counted⟩ := q
  cases back <;> simp [newest?, toList]

/-- The elements after the first `n` are what is left of the list without those. -/
theorem after_eq (q : Fifo α) (n : Nat) : q.after n = q.toList.drop n := by
  obtain ⟨front, back, size, rfl⟩ := q
  have kept : back.take (front.length + back.length - n) = back.take (back.length - (n - front.length)) := by
    by_cases h : n ≤ front.length
    · rw [List.take_of_length_le (by omega), List.take_of_length_le (by omega)]
    · congr 1
      omega
  simp only [after, toList, List.drop_append, List.drop_reverse, kept]

@[simp] theorem toList_dropOldest (q : Fifo α) : q.dropOldest.toList = q.toList.drop 1 := by
  obtain ⟨front, back, size, counted⟩ := q
  cases front <;> simp [dropOldest, toList, ofList]

@[simp] theorem toList_dropWhile (p : α → Bool) (q : Fifo α) :
    (q.dropWhile p).toList = q.toList.dropWhile p := by
  unfold dropWhile
  split <;> rename_i h <;> simp [toList, List.dropWhile_append, h, ofList]

end Fifo

end Tandem
