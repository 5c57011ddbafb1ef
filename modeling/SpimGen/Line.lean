/-
Lines of an assembly listing and their text.
-/
import SpimGen.Instruction

namespace SpimGen

inductive Line (ρ : Type) where
  | instruction (instr : Instruction ρ)
  | labeled (label : String) (instr : Instruction ρ)
  | dataSection
  | textSection
  /-- Makes a symbol visible to the simulator. -/
  | global (symbol : String)
  /-- Declares a string; its text is written as it is, between quotes. -/
  | string (label text : String)
  /-- Describes the sequence that follows. -/
  | comment (text : String)
  /-- Heads a section of the listing. -/
  | banner (text : String)
deriving Repr, DecidableEq

namespace Line

/-- Text of a line, without its newline. -/
def render : Line Register → String
  | .instruction instr => "\t" ++ instr.render
  | .labeled label instr => label ++ ": " ++ instr.render
  | .dataSection => ".data"
  | .textSection => ".text"
  | .global symbol => ".globl " ++ symbol
  | .string label text => label ++ ": .asciiz \"" ++ text ++ "\""
  | .comment text => "#\t" ++ text
  | .banner text => "# " ++ text

/-- Bytes that the line adds to a listing. -/
def bytes (line : Line Register) : List UInt8 :=
  (line.render ++ "\n").toUTF8.data.toList

def instruction? {ρ : Type} : Line ρ → Option (Instruction ρ)
  | .instruction instr => some instr
  | .labeled _ instr => some instr
  | _ => none

def traverse {ρ σ ε : Type} (look : ρ → Except ε σ) :
    Line ρ → Except ε (Line σ)
  | .instruction instr => return .instruction (← instr.traverse look)
  | .labeled label instr => return .labeled label (← instr.traverse look)
  | .dataSection => return .dataSection
  | .textSection => return .textSection
  | .global symbol => return .global symbol
  | .string label text => return .string label text
  | .comment text => return .comment text
  | .banner text => return .banner text

end Line

def listing (lines : List (Line Register)) : List UInt8 :=
  lines.flatMap Line.bytes

end SpimGen
