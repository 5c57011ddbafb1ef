/-
Instructions and their text.  The type of registers is a parameter, so that an
instruction can be described before its registers are looked up.
-/
import SpimGen.Register

namespace SpimGen

/-- Decimal text of a signed word. -/
def decimal (value : Int32) : String :=
  toString value.toInt

/-- Arithmetic and bitwise operations on two values. -/
inductive ArithOp where
  | add
  | sub
  | mul
  | div
  | xor
  | or
  | and
deriving Repr, DecidableEq

/-- Mnemonic of the operation on two registers. -/
def ArithOp.mnemonic : ArithOp → String
  | .add => "add"
  | .sub => "sub"
  | .mul => "mul"
  | .div => "div"
  | .xor => "xor"
  | .or => "or"
  | .and => "and"

/-- Mnemonic of the operation on a register and a constant. -/
def ArithOp.immediateMnemonic (op : ArithOp) : String :=
  op.mnemonic ++ "i"

def ArithOp.all : List ArithOp :=
  [.add, .sub, .mul, .div, .xor, .or, .and]

def ArithOp.ofMnemonic? (text : String) : Option ArithOp :=
  ArithOp.all.find? (fun op => op.mnemonic == text)

/-- Services of the simulator that the generated programs call. -/
inductive Service where
  | printInt
  | printString
  | readInt
  | exit
deriving Repr, DecidableEq

def Service.code : Service → Int32
  | .printInt => 1
  | .printString => 4
  | .readInt => 5
  | .exit => 10

inductive Operand (ρ : Type) where
  | register (reg : ρ)
  | immediate (value : Int32)
  | label (text : String)
  | memory (base : ρ) (offset : Int32)
deriving Repr, DecidableEq

/-- Text of an operand; a memory operand is an offset from a base register. -/
def Operand.render : Operand Register → String
  | .register reg => reg.operand
  | .immediate value => decimal value
  | .label text => text
  | .memory base offset => decimal offset ++ "(" ++ base.operand ++ ")"

inductive Instruction (ρ : Type) where
  /-- `dest` becomes the result of `op` on `lhs` and `rhs`. -/
  | arith (op : ArithOp) (dest lhs rhs : ρ)
  /-- `dest` becomes the result of `op` on `src` and a constant. -/
  | arithImm (op : ArithOp) (dest src : ρ) (value : Int32)
  /-- `dest` becomes the memory word at `offset` from `base`. -/
  | load (dest base : ρ) (offset : Int32)
  /-- The memory word at `offset` from `base` becomes `src`. -/
  | store (src base : ρ) (offset : Int32)
  | loadImm (dest : ρ) (value : Int32)
  | loadAddr (dest : ρ) (label : String)
  | move (dest src : ρ)
  | syscall
  | nop
deriving Repr, DecidableEq

namespace Instruction

/-- The word that names the instruction in assembly text. -/
def mnemonic {ρ : Type} : Instruction ρ → String
  | .arith op _ _ _ => op.mnemonic
  | .arithImm op _ _ _ => op.immediateMnemonic
  | .load _ _ _ => "lw"
  | .store _ _ _ => "sw"
  | .loadImm _ _ => "li"
  | .loadAddr _ _ => "la"
  | .move _ _ => "move"
  | .syscall => "syscall"
  | .nop => "nop"

/-- Operands in the order in which they are written. -/
def operands {ρ : Type} : Instruction ρ → List (Operand ρ)
  | .arith _ dest lhs rhs => [.register dest, .register lhs, .register rhs]
  | .arithImm _ dest src value =>
      [.register dest, .register src, .immediate value]
  | .load dest base offset => [.register dest, .memory base offset]
  | .store src base offset => [.register src, .memory base offset]
  | .loadImm dest value => [.register dest, .immediate value]
  | .loadAddr dest label => [.register dest, .label label]
  | .move dest src => [.register dest, .register src]
  | .syscall => []
  | .nop => []

/-- Registers that the instruction names, in the order of its fields. -/
def registers {ρ : Type} : Instruction ρ → List ρ
  | .arith _ dest lhs rhs => [dest, lhs, rhs]
  | .arithImm _ dest src _ => [dest, src]
  | .load dest base _ => [dest, base]
  | .store src base _ => [src, base]
  | .loadImm dest _ => [dest]
  | .loadAddr dest _ => [dest]
  | .move dest src => [dest, src]
  | .syscall => []
  | .nop => []

/-- Text of an instruction: the mnemonic, then the operands, the first after a
blank and each other after a comma and a blank. -/
def render (instr : Instruction Register) : String :=
  match instr.operands with
  | [] => instr.mnemonic
  | operands =>
      instr.mnemonic ++ " "
        ++ String.intercalate ", " (operands.map Operand.render)

/-- Looks every register up, in the order of the fields; the first one that is
not found decides. -/
def traverse {ρ σ ε : Type} (look : ρ → Except ε σ) :
    Instruction ρ → Except ε (Instruction σ)
  | .arith op dest lhs rhs =>
      return .arith op (← look dest) (← look lhs) (← look rhs)
  | .arithImm op dest src value =>
      return .arithImm op (← look dest) (← look src) value
  | .load dest base offset => return .load (← look dest) (← look base) offset
  | .store src base offset => return .store (← look src) (← look base) offset
  | .loadImm dest value => return .loadImm (← look dest) value
  | .loadAddr dest label => return .loadAddr (← look dest) label
  | .move dest src => return .move (← look dest) (← look src)
  | .syscall => return .syscall
  | .nop => return .nop

end Instruction

end SpimGen
