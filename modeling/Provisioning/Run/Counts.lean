/-!
# Counts of a run
-/

namespace Provisioning

/-- How much was done. -/
structure Counts where
  /-- How many commands ran and succeeded. -/
  executed : Nat := 0
  /-- How many commands were skipped. -/
  cached : Nat := 0
  /-- How many markers were deleted. -/
  invalidated : Nat := 0
deriving DecidableEq, Repr

namespace Counts

/-- Nothing done. -/
def zero : Counts := {}

instance : Add Counts where
  add a b := ⟨a.executed + b.executed, a.cached + b.cached, a.invalidated + b.invalidated⟩

theorem add_def (a b : Counts) : a + b =
    ⟨a.executed + b.executed, a.cached + b.cached, a.invalidated + b.invalidated⟩ := rfl

theorem add_assoc (a b c : Counts) : a + b + c = a + (b + c) := by
  simp only [add_def, Nat.add_assoc]

theorem zero_add (c : Counts) : zero + c = c := by
  simp only [add_def, zero, Nat.zero_add]

/-- All that was done. -/
def sum (cs : List Counts) : Counts := cs.foldl (· + ·) zero

end Counts

end Provisioning
