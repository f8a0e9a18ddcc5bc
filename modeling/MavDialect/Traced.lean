-- Computations that report what they do and may fail.  A failure keeps the reports before it.
-- Law: the result of a sequence is the sequence of the results, whatever is reported.
import MavDialect.LogEvent

namespace MavDialect

/-- The reports of a computation, in order, and how it ended. -/
structure Traced (ε α : Type) where
  log : List LogEvent
  result : Except ε α

namespace Traced

variable {ε α β : Type}

/-- Ends well and reports nothing. -/
def done (a : α) : Traced ε α := ⟨[], .ok a⟩

/-- Ends as `r` does and reports nothing. -/
def ofExcept (r : Except ε α) : Traced ε α := ⟨[], r⟩

/-- Reports one event. -/
def report (e : LogEvent) : Traced ε Unit := ⟨[e], .ok ()⟩

/-- Goes on with `f` unless `x` failed. -/
def andThen (x : Traced ε α) (f : α → Traced ε β) : Traced ε β :=
  match x.result with
  | .error e => ⟨x.log, .error e⟩
  | .ok a => ⟨x.log ++ (f a).log, (f a).result⟩

instance : Monad (Traced ε) where
  pure := done
  bind := andThen

/-- Runs `f` on every item in order, up to the first failure. -/
def each (f : α → Traced ε β) : List α → Traced ε (List β)
  | [] => done []
  | a :: rest => do
    let b ← f a
    let bs ← each f rest
    return b :: bs

@[simp]
theorem result_pure (a : α) : (pure a : Traced ε α).result = .ok a := rfl

@[simp]
theorem result_ofExcept (r : Except ε α) : (ofExcept r).result = r := rfl

@[simp]
theorem result_report (e : LogEvent) : (report e : Traced ε Unit).result = .ok () := rfl

@[simp]
theorem result_bind (x : Traced ε α) (f : α → Traced ε β) :
    (x >>= f).result = x.result >>= fun a => (f a).result := by
  obtain ⟨log, result⟩ := x
  cases result <;> rfl

@[simp]
theorem result_each (f : α → Traced ε β) (l : List α) :
    (each f l).result = l.mapM fun a => (f a).result := by
  induction l with
  | nil => rfl
  | cons a rest ih =>
    simp only [each, result_bind, ih, List.mapM_cons]
    rfl

end Traced

end MavDialect
