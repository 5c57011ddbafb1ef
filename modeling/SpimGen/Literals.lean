/-
Texts of string literals by label text.  The last text recorded under a name
is the one that counts.
-/

namespace SpimGen

/-- Recorded texts, the latest first. -/
structure Literals where
  entries : List (String × String) := []
deriving Repr, DecidableEq

namespace Literals

def insert (literals : Literals) (name text : String) : Literals :=
  ⟨(name, text) :: literals.entries⟩

/-- The text recorded last under a name. -/
def resolve (literals : Literals) (name : String) : Option String :=
  literals.entries.lookup name

@[simp]
theorem resolve_insert_self (literals : Literals) (name text : String) :
    (literals.insert name text).resolve name = some text := by
  simp [insert, resolve]

/-- Recording a text leaves every other name alone. -/
theorem resolve_insert_of_ne (literals : Literals) {name other : String}
    (text : String) (hne : other ≠ name) :
    (literals.insert name text).resolve other = literals.resolve other := by
  simp [insert, resolve, List.lookup_cons, beq_eq_false_iff_ne.mpr hne]

end Literals

end SpimGen
