/-
Reading instructions back.  A reader for MIPS instructions recovers an
instruction with every operand from its text: the mnemonic tells which operands
follow, a register or a number ends where it has to, and the label of an
address, which may be any text, stands last.
-/
import SpimGen.MipsCatalog
import SpimGen.Instruction
import Mathlib.Data.List.TakeWhile

namespace SpimGen

/-! ### Words -/

/-- The text up to the first character that ends a word, and the rest. -/
def cutWord (ends : Char → Bool) (text : List Char) :
    List Char × List Char :=
  (text.takeWhile (fun char => !ends char),
    text.dropWhile (fun char => !ends char))

theorem cutWord_append {ends : Char → Bool} {word : List Char}
    (hword : ∀ char ∈ word, ends char = false) {stop : Char}
    (hstop : ends stop = true) (rest : List Char) :
    cutWord ends (word ++ stop :: rest) = (word, stop :: rest) := by
  have hinside : ∀ char ∈ word, (!ends char) = true := by
    intro char hchar
    rw [hword char hchar, Bool.not_false]
  rw [cutWord, List.takeWhile_append_of_pos hinside,
    List.dropWhile_append_of_pos hinside]
  simp [hstop]

theorem cutWord_self {ends : Char → Bool} {word : List Char}
    (hword : ∀ char ∈ word, ends char = false) :
    cutWord ends word = (word, []) := by
  have hinside : ∀ char ∈ word, (!ends char) = true := by
    intro char hchar
    rw [hword char hchar, Bool.not_false]
  rw [cutWord, List.takeWhile_eq_self_iff.mpr hinside,
    List.dropWhile_eq_nil_iff.mpr hinside]

/-- A word without the character is not ended by it. -/
theorem beq_eq_false_of_notMem {stop : Char} {word : List Char}
    (hstop : stop ∉ word) : ∀ char ∈ word, (char == stop) = false := by
  intro char hchar
  rw [beq_eq_false_iff_ne]
  rintro rfl
  exact hstop hchar

/-! ### Numbers -/

/-- Reads a number without a sign. -/
def readDigits (text : List Char) : Option Nat :=
  if text ≠ [] ∧ text.all Char.isDigit then
    some (Nat.ofDigitChars 10 text 0)
  else none

/-- Reads a number that may have a sign. -/
def readDecimal (text : List Char) : Option Int32 :=
  if text.head? = some '-' then
    (readDigits text.tail).map fun (size : Nat) => Int32.ofInt (-size)
  else (readDigits text).map fun (size : Nat) => Int32.ofInt size

theorem isDigit_of_mem_repr {number : Nat} {char : Char}
    (hchar : char ∈ number.repr.toList) : char.isDigit = true := by
  rw [Nat.toList_repr] at hchar
  exact Nat.isDigit_of_mem_toDigits (by decide) (by decide) hchar

theorem readDigits_repr (number : Nat) :
    readDigits number.repr.toList = some number := by
  have hdigits : number.repr.toList ≠ [] ∧
      number.repr.toList.all Char.isDigit = true :=
    ⟨by simp, List.all_eq_true.mpr fun _ => isDigit_of_mem_repr⟩
  rw [readDigits, if_pos hdigits, Nat.toList_repr,
    Nat.ofDigitChars_ten_toDigits]

theorem decimal_of_nonneg {value : Int32} (hvalue : 0 ≤ value.toInt) :
    decimal value = value.toInt.toNat.repr := by
  rw [decimal, Int.toString_eq_repr, Int.repr_eq_if, if_pos hvalue]

theorem decimal_of_neg {value : Int32} (hvalue : ¬ 0 ≤ value.toInt) :
    decimal value = "-" ++ (-value.toInt).toNat.repr := by
  rw [decimal, Int.toString_eq_repr, Int.repr_eq_if, if_neg hvalue]

@[simp]
theorem readDecimal_decimal (value : Int32) :
    readDecimal (decimal value).toList = some value := by
  by_cases hvalue : 0 ≤ value.toInt
  · have hplain : (decimal value).toList.head? ≠ some '-' := by
      rw [decimal_of_nonneg hvalue]
      intro hhead
      cases isDigit_of_mem_repr (List.mem_of_head? hhead)
    rw [readDecimal, if_neg hplain, decimal_of_nonneg hvalue, readDigits_repr,
      Option.map_some, Int.toNat_of_nonneg hvalue, Int32.ofInt_toInt]
  · have htext : (decimal value).toList =
        '-' :: (-value.toInt).toNat.repr.toList := by
      rw [decimal_of_neg hvalue, String.toList_append]
      rfl
    have hsize : 0 ≤ -value.toInt := by omega
    rw [readDecimal, htext, List.head?_cons, if_pos rfl, List.tail_cons,
      readDigits_repr, Option.map_some, Int.toNat_of_nonneg hsize, Int.neg_neg,
      Int32.ofInt_toInt]

/-- A decimal number has digits and perhaps a sign. -/
theorem notMem_decimal (value : Int32) {char : Char}
    (hdigit : char.isDigit = false) (hsign : char ≠ '-') :
    char ∉ (decimal value).toList := by
  intro hchar
  have hdigits : ∀ {number : Nat}, char ∉ number.repr.toList := by
    intro number hmem
    rw [isDigit_of_mem_repr hmem] at hdigit
    cases hdigit
  by_cases hvalue : 0 ≤ value.toInt
  · rw [decimal_of_nonneg hvalue] at hchar
    exact hdigits hchar
  · rw [decimal_of_neg hvalue, String.toList_append] at hchar
    rcases List.mem_append.mp hchar with hminus | hrest
    · exact hsign (by simpa using hminus)
    · exact hdigits hrest

/-! ### Operands -/

def readRegister : List Char → Option Register
  | '$' :: name => Mips.catalog.named? (String.ofList name)
  | _ => none

theorem readRegister_operand {reg : Register}
    (hreg : reg ∈ Mips.catalog.registers) :
    readRegister ('$' :: reg.name.toList) = some reg := by
  have hnamed : ∀ reg ∈ Mips.catalog.registers,
      Mips.catalog.named? reg.name = some reg := by decide
  rw [readRegister, String.ofList_toList]
  exact hnamed reg hreg

/-- Register names are made of letters and digits. -/
theorem notMem_register_name {reg : Register}
    (hreg : reg ∈ Mips.catalog.registers) {char : Char}
    (hchar : char.isAlphanum = false) : char ∉ reg.name.toList := by
  have hnames : ∀ reg ∈ Mips.catalog.registers,
      reg.name.toList.all Char.isAlphanum = true := by decide
  intro hmem
  rw [List.all_eq_true.mp (hnames reg hreg) char hmem] at hchar
  cases hchar

/-- Reads a register that another operand follows. -/
def takeRegister (text : List Char) : Option (Register × List Char) :=
  let (word, rest) := cutWord (· == ',') text
  (readRegister word).map (fun reg => (reg, rest.drop 2))

theorem takeRegister_operand {reg : Register}
    (hreg : reg ∈ Mips.catalog.registers) (rest : List Char) :
    takeRegister ('$' :: (reg.name.toList ++ ',' :: ' ' :: rest)) =
      some (reg, rest) := by
  have hcomma : ',' ∉ '$' :: reg.name.toList := by
    rw [List.mem_cons, not_or]
    exact ⟨by decide, notMem_register_name hreg (by decide)⟩
  have hcut := cutWord_append (beq_eq_false_of_notMem hcomma)
    (by decide : (',' == ',') = true) (' ' :: rest)
  rw [List.cons_append] at hcut
  simp [takeRegister, hcut, readRegister_operand hreg]

/-- Reads an offset and the base register in brackets. -/
def readMemory (text : List Char) : Option (Register × Int32) :=
  let (word, rest) := cutWord (· == '(') text
  match readDecimal word, readRegister (rest.drop 1).dropLast with
  | some offset, some base => some (base, offset)
  | _, _ => none

theorem readMemory_operand {base : Register}
    (hbase : base ∈ Mips.catalog.registers) (offset : Int32) :
    readMemory ((decimal offset).toList ++
      '(' :: '$' :: (base.name.toList ++ [')'])) = some (base, offset) := by
  have hbracket : '(' ∉ (decimal offset).toList :=
    notMem_decimal offset (by decide) (by decide)
  have hcut := cutWord_append (beq_eq_false_of_notMem hbracket)
    (by decide : ('(' == '(') = true) ('$' :: (base.name.toList ++ [')']))
  have hlast : ('$' :: (base.name.toList ++ [')'])).dropLast =
      '$' :: base.name.toList := by
    rw [← List.cons_append, List.dropLast_concat]
  simp [readMemory, hcut, hlast, readRegister_operand hbase]

def Operand.registers {ρ : Type} : Operand ρ → List ρ
  | .register reg => [reg]
  | .memory base _ => [base]
  | _ => []

/-- The text that the operand is free to choose. -/
def Operand.texts {ρ : Type} : Operand ρ → List String
  | .label text => [text]
  | _ => []

/-! ### Instructions -/

/-- What a mnemonic says about its instruction. -/
inductive Form where
  | arith (op : ArithOp)
  | arithImm (op : ArithOp)
  | load
  | store
  | loadImm
  | loadAddr
  | move
  | syscall
  | nop
deriving Repr, DecidableEq

namespace Form

def mnemonic : Form → String
  | .arith op => op.mnemonic
  | .arithImm op => op.immediateMnemonic
  | .load => "lw"
  | .store => "sw"
  | .loadImm => "li"
  | .loadAddr => "la"
  | .move => "move"
  | .syscall => "syscall"
  | .nop => "nop"

def all : List Form :=
  ArithOp.all.map Form.arith ++ ArithOp.all.map Form.arithImm ++
    [.load, .store, .loadImm, .loadAddr, .move, .syscall, .nop]

def ofMnemonic? (text : String) : Option Form :=
  all.find? (fun form => form.mnemonic == text)

theorem mem_all (form : Form) : form ∈ all := by
  cases form with
  | arith op => cases op <;> decide
  | arithImm op => cases op <;> decide
  | _ => decide

/-- No two forms have the same mnemonic. -/
theorem ofMnemonic?_mnemonic (form : Form) :
    ofMnemonic? form.mnemonic = some form := by
  have hall : ∀ form ∈ all, ofMnemonic? form.mnemonic = some form := by decide
  exact hall form form.mem_all

theorem notMem_mnemonic (form : Form) {char : Char}
    (hchar : char.isAlphanum = false) : char ∉ form.mnemonic.toList := by
  have hall : ∀ form ∈ all,
      form.mnemonic.toList.all Char.isAlphanum = true := by decide
  intro hmem
  rw [List.all_eq_true.mp (hall form form.mem_all) char hmem] at hchar
  cases hchar

def readOperands : Form → List Char → Option (Instruction Register)
  | .arith op, text => do
      let (dest, text) ← takeRegister text
      let (lhs, text) ← takeRegister text
      return .arith op dest lhs (← readRegister text)
  | .arithImm op, text => do
      let (dest, text) ← takeRegister text
      let (src, text) ← takeRegister text
      return .arithImm op dest src (← readDecimal text)
  | .load, text => do
      let (dest, text) ← takeRegister text
      let (base, offset) ← readMemory text
      return .load dest base offset
  | .store, text => do
      let (src, text) ← takeRegister text
      let (base, offset) ← readMemory text
      return .store src base offset
  | .loadImm, text => do
      let (dest, text) ← takeRegister text
      return .loadImm dest (← readDecimal text)
  | .loadAddr, text => do
      let (dest, text) ← takeRegister text
      return .loadAddr dest (String.ofList text)
  | .move, text => do
      let (dest, text) ← takeRegister text
      return .move dest (← readRegister text)
  | .syscall, _ => some .syscall
  | .nop, _ => some .nop

end Form

namespace Instruction

def form {ρ : Type} : Instruction ρ → Form
  | .arith op _ _ _ => .arith op
  | .arithImm op _ _ _ => .arithImm op
  | .load _ _ _ => .load
  | .store _ _ _ => .store
  | .loadImm _ _ => .loadImm
  | .loadAddr _ _ => .loadAddr
  | .move _ _ => .move
  | .syscall => .syscall
  | .nop => .nop

theorem form_mnemonic {ρ : Type} (instr : Instruction ρ) :
    instr.form.mnemonic = instr.mnemonic := by
  cases instr <;> rfl

theorem notMem_mnemonic {ρ : Type} (instr : Instruction ρ) {char : Char}
    (hchar : char.isAlphanum = false) : char ∉ instr.mnemonic.toList := by
  rw [← form_mnemonic]
  exact instr.form.notMem_mnemonic hchar

theorem flatMap_registers_operands {ρ : Type} (instr : Instruction ρ) :
    instr.operands.flatMap Operand.registers = instr.registers := by
  cases instr <;> rfl

/-- Every text that the instruction is free to choose. -/
def texts {ρ : Type} (instr : Instruction ρ) : List String :=
  instr.operands.flatMap Operand.texts

def operandText (instr : Instruction Register) : List Char :=
  (String.intercalate ", " (instr.operands.map Operand.render)).toList

/-- An instruction is its mnemonic and what stands behind the next blank. -/
theorem cutWord_render (instr : Instruction Register) :
    (cutWord (· == ' ') instr.render.toList).1 = instr.mnemonic.toList ∧
      (cutWord (· == ' ') instr.render.toList).2.drop 1 =
        instr.operandText := by
  have hblank := beq_eq_false_of_notMem
    (instr.notMem_mnemonic (by decide : ' '.isAlphanum = false))
  cases hoperands : instr.operands with
  | nil => simp [render, operandText, hoperands, cutWord_self hblank]
  | cons first rest =>
      have hcut := cutWord_append hblank (by decide : (' ' == ' ') = true)
        instr.operandText
      have htext : instr.render.toList =
          instr.mnemonic.toList ++ ' ' :: instr.operandText := by
        simp [render, operandText, hoperands]
      rw [htext, hcut]
      exact ⟨rfl, rfl⟩

theorem readOperands_operandText {instr : Instruction Register}
    (hmips : instr.registers ⊆ Mips.catalog.registers) :
    instr.form.readOperands instr.operandText = some instr := by
  cases instr with
  | arith op dest lhs rhs =>
      simp only [registers, List.cons_subset] at hmips
      obtain ⟨hdest, hlhs, hrhs, -⟩ := hmips
      simp [operandText, operands, Operand.render, Register.operand, form,
        Form.readOperands, takeRegister_operand hdest,
        takeRegister_operand hlhs, readRegister_operand hrhs]
  | arithImm op dest src value =>
      simp only [registers, List.cons_subset] at hmips
      obtain ⟨hdest, hsrc, -⟩ := hmips
      simp [operandText, operands, Operand.render, Register.operand, form,
        Form.readOperands, takeRegister_operand hdest,
        takeRegister_operand hsrc]
  | load dest base offset =>
      simp only [registers, List.cons_subset] at hmips
      obtain ⟨hdest, hbase, -⟩ := hmips
      simp [operandText, operands, Operand.render, Register.operand, form,
        Form.readOperands, takeRegister_operand hdest,
        readMemory_operand hbase]
  | store src base offset =>
      simp only [registers, List.cons_subset] at hmips
      obtain ⟨hsrc, hbase, -⟩ := hmips
      simp [operandText, operands, Operand.render, Register.operand, form,
        Form.readOperands, takeRegister_operand hsrc,
        readMemory_operand hbase]
  | loadImm dest value =>
      simp only [registers, List.cons_subset] at hmips
      simp [operandText, operands, Operand.render, Register.operand, form,
        Form.readOperands, takeRegister_operand hmips.1]
  | loadAddr dest label =>
      simp only [registers, List.cons_subset] at hmips
      simp [operandText, operands, Operand.render, Register.operand, form,
        Form.readOperands, takeRegister_operand hmips.1]
  | move dest src =>
      simp only [registers, List.cons_subset] at hmips
      obtain ⟨hdest, hsrc, -⟩ := hmips
      simp [operandText, operands, Operand.render, Register.operand, form,
        Form.readOperands, takeRegister_operand hdest,
        readRegister_operand hsrc]
  | syscall => rfl
  | nop => rfl

end Instruction

def readInstruction (text : List Char) : Option (Instruction Register) := do
  let (word, rest) := cutWord (· == ' ') text
  let form ← Form.ofMnemonic? (String.ofList word)
  form.readOperands (rest.drop 1)

/-- The text of an instruction determines it, whatever the label of an
address is. -/
theorem readInstruction_render {instr : Instruction Register}
    (hmips : instr.registers ⊆ Mips.catalog.registers) :
    readInstruction instr.render.toList = some instr := by
  obtain ⟨hword, hrest⟩ := instr.cutWord_render
  simp only [readInstruction, hword, hrest, String.ofList_toList,
    ← instr.form_mnemonic, Form.ofMnemonic?_mnemonic]
  exact Instruction.readOperands_operandText hmips

end SpimGen
