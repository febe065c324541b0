/-
**First-in, first-out queues.**

A queue is a list of elements to take and a list of elements added since, last first.  Adding takes
constant time, and taking does so on average.

Main definitions:

* `ActionSignatures.Queue` — queues, seen as lists through `ActionSignatures.Queue.toList`;
* `ActionSignatures.Queue.enqueue`, `ActionSignatures.Queue.dequeue?` — adding and taking.

Main results:

* `ActionSignatures.Queue.toList_enqueue`, `ActionSignatures.Queue.toList_enqueueAll` — elements are
  added at the end;
* `ActionSignatures.Queue.dequeue?_eq_none_iff`, `ActionSignatures.Queue.toList_of_dequeue?` —
  elements are taken from the front.
-/

set_option relaxedAutoImplicit false
set_option autoImplicit false

namespace ActionSignatures

/-- **A queue.** -/
structure Queue (α : Type) where
  front : List α := []
  back : List α := []

namespace Queue

variable {α : Type}

/-- The elements of a queue, the next one first. -/
def toList (q : Queue α) : List α := q.front ++ q.back.reverse

/-- The queue of a list of elements. -/
def ofList (xs : List α) : Queue α := ⟨xs, []⟩

/-- The queue with one more element. -/
def enqueue (q : Queue α) (x : α) : Queue α := { q with back := x :: q.back }

/-- The queue with more elements. -/
def enqueueAll (q : Queue α) (xs : List α) : Queue α := xs.foldl enqueue q

/-- The next element, and the queue without it. -/
def dequeue? (q : Queue α) : Option (α × Queue α) :=
  match q.front with
  | x :: xs => some (x, { q with front := xs })
  | [] =>
      match q.back.reverse with
      | x :: xs => some (x, ⟨xs, []⟩)
      | [] => none

@[simp] theorem toList_ofList (xs : List α) : (ofList xs).toList = xs := by
  simp [toList, ofList]

@[simp] theorem toList_enqueue (q : Queue α) (x : α) : (q.enqueue x).toList = q.toList ++ [x] := by
  simp [toList, enqueue]

@[simp] theorem toList_enqueueAll (q : Queue α) (xs : List α) :
    (q.enqueueAll xs).toList = q.toList ++ xs := by
  induction xs generalizing q with
  | nil => simp [enqueueAll]
  | cons x xs ih =>
      rw [enqueueAll, List.foldl_cons, ← enqueueAll, ih, toList_enqueue]
      simp

/-- A queue without a next element is empty. -/
theorem dequeue?_eq_none_iff {q : Queue α} : q.dequeue? = none ↔ q.toList = [] := by
  obtain ⟨front, back⟩ := q
  cases front with
  | cons x xs => simp [dequeue?, toList]
  | nil =>
      cases h : back.reverse with
      | nil => simp [dequeue?, toList, h]
      | cons x xs => simp [dequeue?, toList, h]

/-- The next element is the first one, and the others stay in order. -/
theorem toList_of_dequeue? {q r : Queue α} {x : α} (h : q.dequeue? = some (x, r)) :
    q.toList = x :: r.toList := by
  obtain ⟨front, back⟩ := q
  cases front with
  | cons y ys =>
      simp only [dequeue?, Option.some.injEq, Prod.mk.injEq] at h
      obtain ⟨rfl, rfl⟩ := h
      rfl
  | nil =>
      simp only [dequeue?] at h
      split at h
      · rename_i y ys hb
        simp only [Option.some.injEq, Prod.mk.injEq] at h
        obtain ⟨rfl, rfl⟩ := h
        simp [toList, hb]
      · simp at h

end Queue

end ActionSignatures
