/-
Emission requests and the lines they stand for.  A request is one thing that a
compiler wants to happen in the generated program; the lines that make it
happen depend on nothing but the request and on whether a comment precedes
them.
-/
import SpimGen.Line
import SpimGen.MipsCatalog

namespace SpimGen

inductive Emission (ρ : Type) where
  | arith (op : ArithOp) (dest lhs rhs : ρ)
  | arithImm (op : ArithOp) (dest src : ρ) (value : Int32)
  | load (dest base : ρ) (offset : Int32)
  | store (src base : ρ) (offset : Int32)
  | loadImm (dest : ρ) (value : Int32)
  | loadAddr (dest : ρ) (label : String)
  /-- `dest` becomes the next integer of the input. -/
  | readInt (dest : ρ)
  | printInt (value : Int32)
  /-- Prints the integer in a register; no newline follows. -/
  | printRegister (reg : ρ)
  /-- Prints the string whose address is in a register. -/
  | printString (reg : ρ)
  | printNewline
  /-- Declares the newline literal and starts the code at the entry point. -/
  | prolog
  | epilog
  | dataSection
  | string (label text : String)
  | call (service : Service)
  | raw (line : Line ρ)
deriving Repr, DecidableEq

namespace Emission

def callLines (service : Service) : List (Line Register) :=
  [.instruction (.loadImm Mips.v0 service.code), .instruction .syscall]

/-- The lines that do what the request asks for. -/
def body : Emission Register → List (Line Register)
  | .arith op dest lhs rhs => [.instruction (.arith op dest lhs rhs)]
  | .arithImm op dest src value =>
      [.instruction (.arithImm op dest src value)]
  | .load dest base offset => [.instruction (.load dest base offset)]
  | .store src base offset => [.instruction (.store src base offset)]
  | .loadImm dest value => [.instruction (.loadImm dest value)]
  | .loadAddr dest label => [.instruction (.loadAddr dest label)]
  | .readInt dest =>
      callLines .readInt ++ [.instruction (.move dest Mips.v0)]
  | .printInt value =>
      .instruction (.loadImm Mips.a0 value) :: callLines .printInt
  | .printRegister reg =>
      .instruction (.move Mips.a0 reg) :: callLines .printInt
  | .printString reg =>
      .instruction (.move Mips.a0 reg) :: callLines .printString
  | .printNewline =>
      .instruction (.loadAddr Mips.a0 Mips.newlineLabel)
        :: callLines .printString
  | .prolog =>
      [.dataSection, .string Mips.newlineLabel "\\n", .textSection,
       .global Mips.entryLabel, .labeled Mips.entryLabel .nop]
  | .epilog => callLines .exit
  | .dataSection => [.dataSection]
  | .string label text => [.string label text]
  | .call service => callLines service
  | .raw line => [line]

/-- The line that describes the request in an annotated listing.  Sections,
declarations, bare service calls and single lines have none. -/
def annotation : Emission Register → Option (Line Register)
  | .arith op dest lhs rhs =>
      some (.comment (dest.name ++ " = " ++ op.mnemonic ++ " (" ++ lhs.name
        ++ "," ++ rhs.name ++ ")"))
  | .arithImm op dest src value =>
      some (.comment (dest.name ++ " = " ++ op.mnemonic ++ " (" ++ src.name
        ++ " " ++ decimal value ++ ")"))
  | .load dest base offset =>
      some (.comment (dest.name ++ " = " ++ base.name ++ "["
        ++ decimal offset ++ "]"))
  | .store src base offset =>
      some (.comment (base.name ++ "[" ++ decimal offset ++ "] = "
        ++ src.name))
  | .loadImm dest value => some (.comment (dest.name ++ " = " ++ decimal value))
  | .loadAddr dest label => some (.comment (dest.name ++ " = " ++ label))
  | .readInt dest => some (.comment (dest.name ++ " = <stdin>"))
  | .printInt _ => some (.comment "print constant value")
  | .printRegister _ => some (.comment "print register content")
  | .printString _ => some (.comment "print constant string")
  | .printNewline => some (.comment "print new line")
  | .prolog => some (.banner "prolog")
  | .epilog => some (.comment "exit()ing the program")
  | .dataSection | .string _ _ | .call _ | .raw _ => none

/-- All lines of a request, with its annotation in front if wanted. -/
def lines (annotate : Bool) (request : Emission Register) :
    List (Line Register) :=
  if annotate then request.annotation.toList ++ request.body
  else request.body

@[simp]
theorem lines_false (request : Emission Register) :
    request.lines false = request.body :=
  rfl

@[simp]
theorem lines_true (request : Emission Register) :
    request.lines true = request.annotation.toList ++ request.body :=
  rfl

/-- Looks every register of a request up, in the order of its fields. -/
def traverse {ρ σ ε : Type} (look : ρ → Except ε σ) :
    Emission ρ → Except ε (Emission σ)
  | .arith op dest lhs rhs =>
      return .arith op (← look dest) (← look lhs) (← look rhs)
  | .arithImm op dest src value =>
      return .arithImm op (← look dest) (← look src) value
  | .load dest base offset => return .load (← look dest) (← look base) offset
  | .store src base offset => return .store (← look src) (← look base) offset
  | .loadImm dest value => return .loadImm (← look dest) value
  | .loadAddr dest label => return .loadAddr (← look dest) label
  | .readInt dest => return .readInt (← look dest)
  | .printInt value => return .printInt value
  | .printRegister reg => return .printRegister (← look reg)
  | .printString reg => return .printString (← look reg)
  | .printNewline => return .printNewline
  | .prolog => return .prolog
  | .epilog => return .epilog
  | .dataSection => return .dataSection
  | .string label text => return .string label text
  | .call service => return .call service
  | .raw line => return .raw (← line.traverse look)

end Emission

end SpimGen
