/-
The MIPS register file.  Hardware numbers are catalog positions, and the pool
may hand out the temporaries and the saved registers, numbers 8 to 25.
-/
import SpimGen.Register

namespace SpimGen.Mips

/-- Register names in hardware order. -/
def names : List String :=
  ["zero", "at", "v0", "v1", "a0", "a1", "a2", "a3",
   "t0", "t1", "t2", "t3", "t4", "t5", "t6", "t7",
   "s0", "s1", "s2", "s3", "s4", "s5", "s6", "s7",
   "t8", "t9", "k0", "k1", "gp", "sp", "fp", "ra"]

def register (name : String) (index : Nat) : Register :=
  { name, index, allocatable := decide (8 ≤ index ∧ index < 26) }

/-- All thirty-two registers, numbered by position. -/
def catalog : Catalog where
  registers := names.zipIdx.map (fun (name, index) => register name index)
  capitals := true

/-- The register that always reads as zero. -/
def zero : Register := register "zero" 0

/-- Holds the number of the requested service and the result of reading. -/
def v0 : Register := register "v0" 2

/-- Holds the argument of a service. -/
def a0 : Register := register "a0" 4

/-- Base of the static data area. -/
def gp : Register := register "gp" 28

theorem catalog_positional : catalog.Positional := by
  intro position reg hreg
  simp only [Catalog.at?, catalog, List.getElem?_map, List.getElem?_zipIdx,
    Option.map_map, Option.map_eq_some_iff, Function.comp_apply] at hreg
  obtain ⟨name, _, rfl⟩ := hreg
  simp [register]

/-- Label of the newline literal that every program declares. -/
def newlineLabel : String := ".newline"

def entryLabel : String := "main"

end SpimGen.Mips
