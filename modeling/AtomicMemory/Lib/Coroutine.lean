import Mathlib.Data.List.Basic

-- A computation that an event loop resumes, with nothing or with an exception thrown into it.

universe u v

/-- It has ended, or it is suspended and goes on when it is resumed. -/
inductive Coroutine (ε : Type u) (α : Type v)
  | ends (result : Except ε α)
  | suspends (resume : Option ε → Coroutine ε α)

namespace Coroutine

variable {ε : Type u} {α β : Type v}

def run : List (Option ε) → Coroutine ε α → Option (Except ε α)
  | _, ends result => some result
  | [], suspends _ => none
  | thrown :: rest, suspends resume => run rest (resume thrown)

def finish : List (Option ε) → Coroutine ε α → Option (Except ε α × List (Option ε))
  | rest, ends result => some (result, rest)
  | [], suspends _ => none
  | thrown :: rest, suspends resume => finish rest (resume thrown)

/-- `f` done to the value, without another suspension. -/
def andThen (f : α → Except ε β) : Coroutine ε α → Coroutine ε β
  | ends (.ok a) => ends (f a)
  | ends (.error e) => ends (.error e)
  | suspends resume => suspends fun thrown => andThen f (resume thrown)

/-- An `except` clause around it, which makes one exception of another. -/
def mapError (g : ε → ε) : Coroutine ε α → Coroutine ε α
  | ends result => ends (result.mapError g)
  | suspends resume => suspends fun thrown => mapError g (resume thrown)

@[simp] theorem run_ends (resumptions : List (Option ε)) (result : Except ε α) :
    (ends result).run resumptions = some result := by
  cases resumptions <;> rfl

theorem run_andThen (f : α → Except ε β) (resumptions : List (Option ε)) (c : Coroutine ε α) :
    (c.andThen f).run resumptions = (c.run resumptions).map (· >>= f) := by
  induction resumptions generalizing c with
  | nil =>
    cases c with
    | ends result => cases result <;> rfl
    | suspends resume => rfl
  | cons thrown rest ih =>
    cases c with
    | ends result => cases result <;> rfl
    | suspends resume => exact ih (resume thrown)

theorem run_mapError (g : ε → ε) (resumptions : List (Option ε)) (c : Coroutine ε α) :
    (c.mapError g).run resumptions = (c.run resumptions).map (·.mapError g) := by
  induction resumptions generalizing c with
  | nil => cases c <;> rfl
  | cons thrown rest ih =>
    cases c with
    | ends result => rfl
    | suspends resume => exact ih (resume thrown)

end Coroutine
