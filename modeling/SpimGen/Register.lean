/-
Machine registers and the catalogs that list them.  A catalog is the only thing
the register pool knows about its target: which registers exist, in which
order, and which of them may be handed out.
-/

namespace SpimGen

/-- A machine register as its catalog describes it. -/
structure Register where
  /-- Name in assembly text, without the `$` in front. -/
  name : String
  /-- Hardware number, under which the pool keeps the busy flag. -/
  index : Nat
  allocatable : Bool
deriving Repr, DecidableEq

/-- An operand spells a register with a dollar sign in front of its name. -/
def Register.operand (reg : Register) : String :=
  "$" ++ reg.name

/-- The registers of a target, in catalog order.  Nothing is assumed about
their hardware numbers: they may be permuted, shared or out of range. -/
structure Catalog where
  registers : List Register
  /-- Whether the inventory of a fresh pool spells names in capitals. -/
  capitals : Bool := false
deriving Repr, DecidableEq

/-- The registers that the pool may hand out, in catalog order. -/
def Catalog.allocatable (catalog : Catalog) : List Register :=
  catalog.registers.filter Register.allocatable

def Catalog.capacity (catalog : Catalog) : Nat :=
  catalog.allocatable.length

def Catalog.at? (catalog : Catalog) (position : Nat) : Option Register :=
  catalog.registers[position]?

/-- The first register with the given name. -/
def Catalog.named? (catalog : Catalog) (name : String) : Option Register :=
  catalog.registers.find? (fun reg => reg.name == name)

/-- How the inventory of a fresh pool spells a register. -/
def Catalog.tag (catalog : Catalog) (reg : Register) : String :=
  if catalog.capitals then reg.name.toUpper else reg.name

/-- Every hardware number is the register's catalog position. -/
def Catalog.Positional (catalog : Catalog) : Prop :=
  ∀ (position : Nat) (reg : Register),
    catalog.at? position = some reg → reg.index = position

end SpimGen
