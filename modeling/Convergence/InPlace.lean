/-!
# Operations in place

An operation in place changes a value write by write, and may be refused on the way.  Nothing is
taken back then: what was written before the refusal stays written.  Whether a refused operation
leaves the value as it was (`AllOrNothing`) is therefore a matter of where its writes stand.

Many callers drop the value if the operation is refused.  What they get is `result`, or `changed` if
there is no answer; what the others are left with is `after`.  For an operation that is all or
nothing the one tells the other (`AllOrNothing.after_of_result_eq_error`).
-/

namespace Convergence

/-- An operation on a value in place.  Its run ends in the value that it leaves behind, with its
answer or with the error that it was refused with. -/
abbrev InPlace (σ ε α : Type) := EStateM ε σ α

namespace InPlace

variable {σ ε α : Type}

/-- The value that an operation leaves behind, refused or not. -/
def after (op : InPlace σ ε α) (s : σ) : σ :=
  match op.run s with
  | .ok _ s' => s'
  | .error _ s' => s'

/-- The changed value with the answer, or the error alone. -/
def result (op : InPlace σ ε α) (s : σ) : Except ε (σ × α) :=
  match op.run s with
  | .ok a s' => .ok (s', a)
  | .error e _ => .error e

/-- The changed value, or the error alone, for an operation without an answer. -/
def changed (op : InPlace σ ε Unit) (s : σ) : Except ε σ := (op.result s).map (·.1)

/-- A refused operation has written nothing. -/
def AllOrNothing (op : InPlace σ ε α) : Prop := ∀ s e s', op.run s = .error e s' → s' = s

variable {op : InPlace σ ε α} {act : InPlace σ ε Unit} {s s' : σ} {a : α} {e : ε}

theorem result_eq_ok : op.result s = .ok (s', a) ↔ op.run s = .ok a s' := by
  rw [result]
  cases op.run s <;> simp [and_comm]

theorem result_eq_error : op.result s = .error e ↔ ∃ s', op.run s = .error e s' := by
  rw [result]
  cases op.run s <;> simp

theorem changed_eq_ok : act.changed s = .ok s' ↔ act.result s = .ok (s', ()) := by
  rw [changed]
  cases act.result s <;> simp [Except.map, Prod.ext_iff]

theorem changed_eq_error : act.changed s = .error e ↔ act.result s = .error e := by
  rw [changed]
  cases act.result s <;> simp [Except.map]

theorem after_of_result_eq_ok (h : op.result s = .ok (s', a)) : op.after s = s' := by
  rw [after, result_eq_ok.1 h]

namespace AllOrNothing

theorem run_eq_error (hop : op.AllOrNothing) :
    op.run s = .error e s' ↔ op.result s = .error e ∧ s' = s := by
  constructor
  · intro h
    exact ⟨result_eq_error.2 ⟨s', h⟩, hop s e s' h⟩
  · rintro ⟨h, rfl⟩
    obtain ⟨s'', h⟩ := result_eq_error.1 h
    rwa [hop s' e s'' h] at h

theorem after_of_result_eq_error (hop : op.AllOrNothing) (h : op.result s = .error e) :
    op.after s = s := by
  rw [after, hop.run_eq_error.2 ⟨h, rfl⟩]

end AllOrNothing

end InPlace

end Convergence
