import FormulaStepper.Dictionary
import FormulaStepper.Evaluation.Machine

/-!
# Variables

The variables of a session are a dictionary of values. Evaluation sees them as
an environment.
-/

set_option autoImplicit false

namespace FormulaStepper

/-- Named values, in the order of their names. -/
structure Variables where
  entries : List (String × Value)
deriving Inhabited

namespace Variables

/-- No variables. -/
def empty : Variables := ⟨[]⟩

/-- The variables with a value put under a name. -/
def insert (bindings : Variables) (name : String) (value : Value) : Variables :=
  ⟨Dictionary.insert name value bindings.entries⟩

/-- The variables of pairs inserted in order; a later pair replaces an earlier one. -/
def ofList (pairs : List (String × Value)) : Variables :=
  ⟨Dictionary.ofList pairs⟩

/-- The value under a name. -/
def get? (bindings : Variables) (name : String) : Option Value :=
  bindings.entries.lookup name

/-- The number of variables. -/
def size (bindings : Variables) : Nat :=
  bindings.entries.length

/-- The variables as evaluation sees them. -/
def environment (bindings : Variables) : Environment :=
  bindings.get?

@[simp] theorem get?_insert_self (bindings : Variables) (name : String) (value : Value) :
    (bindings.insert name value).get? name = some value :=
  Dictionary.lookup_insert_self name value bindings.entries

theorem get?_insert_of_ne {name other : String} (different : other ≠ name)
    (bindings : Variables) (value : Value) :
    (bindings.insert name value).get? other = bindings.get? other :=
  Dictionary.lookup_insert_of_ne different value bindings.entries

end Variables

end FormulaStepper
