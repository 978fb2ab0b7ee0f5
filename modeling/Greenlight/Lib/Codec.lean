import Greenlight.Lib.Result

/-!
# Readers and writers

A writer puts the symbols of a value on a stream and a reader takes a value from the front of it.  If the reader
gives back what was written and leaves what follows (`Reads`), any list of values comes back in order, and the
stream is where it was.
-/

namespace Greenlight.Lib

variable {τ ε α : Type}

/-- The symbols of the values, one after the other. -/
def writeAll (write : α → List τ) (as : List α) : List τ := as.flatMap write

/-- The next `n` values on the stream. -/
def readN (read : List τ → Except ε (α × List τ)) : ℕ → List τ → Except ε (List α × List τ)
  | 0, s => .ok ([], s)
  | n + 1, s => do
    let (a, s) ← read s
    let (as, s) ← readN read n s
    return (a :: as, s)

/-- What was written of the value is read back, whatever follows. -/
def Reads (read : List τ → Except ε (α × List τ)) (write : α → List τ) (a : α) : Prop :=
  ∀ rest, read (write a ++ rest) = .ok (a, rest)

variable {read : List τ → Except ε (α × List τ)} {write : α → List τ}

@[simp] theorem writeAll_nil : writeAll write [] = [] := rfl

@[simp] theorem writeAll_cons (a : α) (as : List α) : writeAll write (a :: as) = write a ++ writeAll write as := rfl

/-- **A list of values comes back**, and nothing of what follows is touched. -/
theorem readN_writeAll {as : List α} (h : ∀ a ∈ as, Reads read write a) (rest : List τ) :
    readN read as.length (writeAll write as ++ rest) = .ok (as, rest) := by
  induction as with
  | nil => rfl
  | cons a as ih =>
    have hfirst : read (write a ++ (writeAll write as ++ rest)) = .ok (a, writeAll write as ++ rest) :=
      h a List.mem_cons_self _
    have hrest := ih fun b hb => h b (List.mem_cons_of_mem a hb)
    rw [writeAll_cons, List.append_assoc, List.length_cons, readN]
    refine bind_eq_ok.2 ⟨_, hfirst, ?_⟩
    exact bind_eq_ok.2 ⟨_, hrest, rfl⟩

end Greenlight.Lib
