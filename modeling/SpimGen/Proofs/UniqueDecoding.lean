/-
Reading listings back.  The first word of a line and the character behind it
tell the kind of the line, and the texts that may be anything stand last, so a
reader recovers every line of a listing from its bytes.  No two listings have
the same bytes.
-/
import SpimGen.Proofs.InstructionReader
import SpimGen.Proofs.LineWriting

namespace SpimGen

/-! ### Lines -/

/-- The characters that end the first word of a line. -/
def endsHead (char : Char) : Bool :=
  char == ':' || char == ' ' || char == '\t'

/-- What stands between a label and the text of the string it names. -/
def stringMark : List Char :=
  ".asciiz \"".toList

/-- Reads what follows a label. -/
def readLabeled (label body : List Char) : Option (Line Register) :=
  if stringMark.isPrefixOf body then
    some (.string (String.ofList label)
      (String.ofList (body.drop stringMark.length).dropLast))
  else
    (readInstruction body).map (.labeled (String.ofList label))

/-- Reads a line, without its newline. -/
def readLine (text : List Char) : Option (Line Register) :=
  let (word, rest) := cutWord endsHead text
  match rest with
  | ':' :: body => readLabeled word (body.drop 1)
  | '\t' :: body =>
      if word.isEmpty then (readInstruction body).map .instruction
      else some (.comment (String.ofList body))
  | ' ' :: body =>
      if word == ['#'] then some (.banner (String.ofList body))
      else some (.global (String.ofList body))
  | _ => some (if word == ".data".toList then .dataSection else .textSection)

namespace Line

def registers {ρ : Type} (line : Line ρ) : List ρ :=
  (line.instruction?.map Instruction.registers).getD []

def label? {ρ : Type} : Line ρ → Option String
  | .labeled label _ => some label
  | .string label _ => some label
  | _ => none

/-- Every text that the line is free to choose. -/
def texts {ρ : Type} : Line ρ → List String
  | .instruction instr => instr.texts
  | .labeled label instr => label :: instr.texts
  | .dataSection => []
  | .textSection => []
  | .global symbol => [symbol]
  | .string label text => [label, text]
  | .comment text => [text]
  | .banner text => [text]

/-- A line of a MIPS listing without a newline in its texts or a colon, blank
or tab in its label.  A label may begin with a number sign and the other texts
are arbitrary. -/
@[mk_iff]
structure Readable (line : Line Register) : Prop where
  registers_mips : line.registers ⊆ Mips.catalog.registers
  texts_single : ∀ text ∈ line.texts, '\n' ∉ text.toList
  label_word : ∀ label ∈ line.label?, ∀ char ∈ label.toList,
    endsHead char = false

end Line

theorem readLabeled_string (label text : List Char) :
    readLabeled label (stringMark ++ (text ++ ['"'])) =
      some (.string (String.ofList label) (String.ofList text)) := by
  rw [readLabeled, if_pos (List.isPrefixOf_iff_prefix.mpr
    (List.prefix_append stringMark (text ++ ['"']))), List.drop_left,
    List.dropLast_concat]

/-- An instruction does not begin like a string: no mnemonic has a dot. -/
theorem not_stringMark_prefix_render (instr : Instruction Register) :
    ¬ stringMark <+: instr.render.toList := by
  rintro ⟨rest, hrest⟩
  have hword := instr.cutWord_render.1
  rw [← hrest] at hword
  have hdot : '.' ∈ instr.mnemonic.toList := by
    rw [← hword]
    exact List.mem_cons_self
  exact instr.notMem_mnemonic (by decide) hdot

theorem readLabeled_instruction (label : List Char)
    {instr : Instruction Register}
    (hmips : instr.registers ⊆ Mips.catalog.registers) :
    readLabeled label instr.render.toList =
      some (.labeled (String.ofList label) instr) := by
  have hmark : ¬ stringMark.isPrefixOf instr.render.toList = true := by
    rw [List.isPrefixOf_iff_prefix]
    exact not_stringMark_prefix_render instr
  rw [readLabeled, if_neg hmark, readInstruction_render hmips, Option.map_some]

theorem readLine_render {line : Line Register} (hline : line.Readable) :
    readLine line.render.toList = some line := by
  obtain ⟨hmips, -, hlabel⟩ := hline
  cases line with
  | instruction instr =>
      have hread := readInstruction_render hmips
      simp [readLine, Line.render, cutWord, endsHead, hread]
  | labeled label instr =>
      -- The label is any word, so only the lemma on words finds its end.
      have htext : (Line.labeled label instr).render.toList =
          label.toList ++ ':' :: ' ' :: instr.render.toList := by
        simp [Line.render]
      have hcut := cutWord_append (hlabel label rfl)
        (by decide : endsHead ':' = true) (' ' :: instr.render.toList)
      simp [readLine, htext, hcut, readLabeled_instruction _ hmips]
  | dataSection => decide
  | textSection => decide
  | global symbol =>
      simp [readLine, Line.render, cutWord, endsHead]
  | string label text =>
      have htext : (Line.string label text).render.toList =
          label.toList ++ ':' :: ' ' :: (stringMark ++ (text.toList ++ ['"'])) := by
        have hmark : ": .asciiz \"".toList = ':' :: ' ' :: stringMark := by
          decide
        simp only [Line.render, String.toList_append, hmark, List.append_assoc,
          List.cons_append]
        rfl
      have hcut := cutWord_append (hlabel label rfl)
        (by decide : endsHead ':' = true)
        (' ' :: (stringMark ++ (text.toList ++ ['"'])))
      simp [readLine, htext, hcut, readLabeled_string]
  | comment text =>
      simp [readLine, Line.render, cutWord, endsHead]
  | banner text =>
      simp [readLine, Line.render, cutWord, endsHead]

/-! ### Listings -/

/-- The lines of a text, each without its newline. -/
def splitLines : List Char → List (List Char)
  | [] => []
  | char :: text =>
      if char == '\n' then [] :: splitLines text
      else
        match splitLines text with
        | [] => [[char]]
        | line :: lines => (char :: line) :: lines

theorem splitLines_append {line : List Char} (hline : '\n' ∉ line)
    (rest : List Char) :
    splitLines (line ++ '\n' :: rest) = line :: splitLines rest := by
  induction line with
  | nil => simp [splitLines]
  | cons char line ih =>
      rw [List.mem_cons, not_or] at hline
      have hchar : (char == '\n') = false := by
        rw [beq_eq_false_iff_ne]
        exact Ne.symm hline.1
      rw [List.cons_append, splitLines, hchar, ih hline.2]
      rfl

theorem Operand.newline_notMem_render (operand : Operand Register)
    (hmips : operand.registers ⊆ Mips.catalog.registers)
    (htexts : ∀ text ∈ operand.texts, '\n' ∉ text.toList) :
    '\n' ∉ operand.render.toList := by
  cases operand with
  | register reg =>
      have hname := notMem_register_name (hmips List.mem_cons_self)
        (by decide : '\n'.isAlphanum = false)
      simp [render, Register.operand, hname]
  | immediate value => exact notMem_decimal value (by decide) (by decide)
  | label text => exact htexts text List.mem_cons_self
  | memory base offset =>
      have hname := notMem_register_name (hmips List.mem_cons_self)
        (by decide : '\n'.isAlphanum = false)
      have hoffset := notMem_decimal offset
        (by decide : '\n'.isDigit = false) (by decide)
      simp [render, Register.operand, hname, hoffset]

theorem newline_notMem_intercalate {texts : List String}
    (htexts : ∀ text ∈ texts, '\n' ∉ text.toList) :
    '\n' ∉ (String.intercalate ", " texts).toList := by
  induction texts with
  | nil => simp
  | cons first rest ih =>
      obtain ⟨hfirst, hrest⟩ := List.forall_mem_cons.mp htexts
      by_cases hempty : rest = []
      · simp [hempty, hfirst]
      · have hcomma : '\n' ∉ ", ".toList := by decide
        simp only [String.intercalate_cons_of_ne_nil hempty,
          String.toList_append, List.mem_append, hfirst, hcomma, ih hrest,
          or_self, not_false_eq_true]

theorem Instruction.newline_notMem_render (instr : Instruction Register)
    (hmips : instr.registers ⊆ Mips.catalog.registers)
    (htexts : ∀ text ∈ instr.texts, '\n' ∉ text.toList) :
    '\n' ∉ instr.render.toList := by
  have hmnemonic : '\n' ∉ instr.mnemonic.toList :=
    instr.notMem_mnemonic (by decide)
  have hoperand : ∀ text ∈ instr.operands.map Operand.render,
      '\n' ∉ text.toList := by
    intro text htext
    obtain ⟨operand, hmem, rfl⟩ := List.mem_map.mp htext
    apply operand.newline_notMem_render
    · intro reg hreg
      apply hmips
      rw [← flatMap_registers_operands]
      exact List.mem_flatMap_of_mem hmem hreg
    · intro text htext
      exact htexts text (List.mem_flatMap_of_mem hmem htext)
  have hoperands := newline_notMem_intercalate hoperand
  rw [render]
  split
  · exact hmnemonic
  · have hblank : '\n' ∉ " ".toList := by decide
    simp only [String.toList_append, List.mem_append, hmnemonic, hblank,
      hoperands, or_self, not_false_eq_true]

/-- A line whose texts have no newline is a single line. -/
theorem Line.newline_notMem_render (line : Line Register)
    (hmips : line.registers ⊆ Mips.catalog.registers)
    (htexts : ∀ text ∈ line.texts, '\n' ∉ text.toList) :
    '\n' ∉ line.render.toList := by
  cases line with
  | instruction instr =>
      have hinstr := instr.newline_notMem_render hmips htexts
      simp [Line.render, hinstr]
  | labeled label instr =>
      obtain ⟨hlabel, hrest⟩ := List.forall_mem_cons.mp htexts
      have hinstr := instr.newline_notMem_render hmips hrest
      simp [Line.render, hlabel, hinstr]
  | dataSection => decide
  | textSection => decide
  | global symbol =>
      have hsymbol := htexts symbol List.mem_cons_self
      simp [Line.render, hsymbol]
  | string label text =>
      obtain ⟨hlabel, hrest⟩ := List.forall_mem_cons.mp htexts
      have htext := hrest text List.mem_cons_self
      simp [Line.render, hlabel, htext]
  | comment text =>
      have htext := htexts text List.mem_cons_self
      simp [Line.render, htext]
  | banner text =>
      have htext := htexts text List.mem_cons_self
      simp [Line.render, htext]

def listingText : List (Line Register) → String
  | [] => ""
  | line :: lines => line.render ++ "\n" ++ listingText lines

theorem listing_eq_toUTF8 (lines : List (Line Register)) :
    listing lines = (listingText lines).toUTF8.data.toList := by
  induction lines with
  | nil => rfl
  | cons line lines ih =>
      simp [listingText, Line.bytes, ih]

def readListing (bytes : List UInt8) : Option (List (Line Register)) := do
  let text ← String.fromUTF8? ⟨bytes.toArray⟩
  (splitLines text.toList).mapM readLine

theorem mapM_readLine_listingText {lines : List (Line Register)}
    (hlines : ∀ line ∈ lines, line.Readable) :
    (splitLines (listingText lines).toList).mapM readLine = some lines := by
  induction lines with
  | nil => rfl
  | cons line lines ih =>
      obtain ⟨hline, hrest⟩ := List.forall_mem_cons.mp hlines
      have htext : (listingText (line :: lines)).toList =
          line.render.toList ++ '\n' :: (listingText lines).toList := by
        simp [listingText]
      have hnewline := line.newline_notMem_render hline.registers_mips
        hline.texts_single
      rw [htext, splitLines_append hnewline, List.mapM_cons,
        readLine_render hline, ih hrest]
      rfl

theorem readListing_listing {lines : List (Line Register)}
    (hlines : ∀ line ∈ lines, line.Readable) :
    readListing (listing lines) = some lines := by
  have hdecoded : String.fromUTF8? ⟨(listing lines).toArray⟩ =
      some (listingText lines) := by
    rw [listing_eq_toUTF8]
    simp only [String.fromUTF8?, String.toUTF8_eq_toByteArray,
      Array.toArray_toList, Option.dite_none_right_eq_some, Option.some.injEq]
    exact ⟨(listingText lines).isValidUTF8, rfl⟩
  rw [readListing, hdecoded]
  exact mapM_readLine_listingText hlines

/-- What an unlimited sink holds after the lines. -/
def Emitter.output (lines : List (Line Register)) : List UInt8 :=
  (Action.each write lines {}).state.sink.written

theorem Emitter.each_write_fresh (lines : List (Line Register)) :
    Action.each write lines {} =
      ⟨.ok (), Emitter.receive {} (listing lines) lines.length, []⟩ :=
  each_write_of_fits (fun room hroom => by cases hroom)

theorem Emitter.output_eq_listing (lines : List (Line Register)) :
    output lines = listing lines := by
  rw [output, each_write_fresh]
  rfl

/-- A listing can be read back, so its text determines its lines; and the text
of an instruction determines the instruction. -/
theorem Emitter.output_uniquely_decodable :
    (∀ first second : List (Line Register),
      (∀ line ∈ first, line.Readable) → (∀ line ∈ second, line.Readable) →
        output first = output second → first = second) ∧
    (∀ lines : List (Line Register), (∀ line ∈ lines, line.Readable) →
      (Action.each write lines {}).result = .ok () ∧
        readListing (output lines) = some lines) ∧
    (∀ first second : Instruction Register,
      first.registers ⊆ Mips.catalog.registers →
        second.registers ⊆ Mips.catalog.registers →
          first.render = second.render → first = second) := by
  have hread : ∀ lines : List (Line Register),
      (∀ line ∈ lines, line.Readable) →
        readListing (output lines) = some lines := by
    intro lines hlines
    rw [output_eq_listing]
    exact readListing_listing hlines
  refine ⟨?_, ?_, ?_⟩
  · intro first second hfirst hsecond houtput
    have hsome := hread first hfirst
    rw [houtput, hread second hsecond] at hsome
    exact (Option.some.inj hsome).symm
  · intro lines hlines
    rw [each_write_fresh]
    exact ⟨rfl, hread lines hlines⟩
  · intro first second hfirst hsecond hrender
    have hsome := readInstruction_render hfirst
    rw [hrender, readInstruction_render hsecond] at hsome
    exact (Option.some.inj hsome).symm

/-- Lines that look like others: marks of comments, labels and strings inside
labels and texts, and the least word as an offset. -/
def lookalikes : List (Line Register) :=
  [.labeled "#" (.loadAddr Mips.a0 "x: .asciiz \"y\", 0($gp)"),
   .string ".globl" "# \" .data",
   .global "main: nop",
   .comment "",
   .banner "\tsyscall",
   .instruction (.load Mips.v0 Mips.gp Int32.minValue),
   .instruction (.arithImm .or Mips.v0 Mips.zero (-1))]

theorem Emitter.output_lookalikes_decodable :
    (∀ line ∈ lookalikes, line.Readable) ∧
      readListing (output lookalikes) = some lookalikes := by
  have hmips : Mips.a0 ∈ Mips.catalog.registers ∧
      Mips.v0 ∈ Mips.catalog.registers ∧ Mips.gp ∈ Mips.catalog.registers ∧
        Mips.zero ∈ Mips.catalog.registers := by decide
  have hreadable : ∀ line ∈ lookalikes, line.Readable := by
    simp [lookalikes, Line.readable_iff, Line.registers, Line.texts,
      Line.label?, Line.instruction?, Instruction.registers,
      Instruction.texts, Instruction.operands, Operand.texts, endsHead, hmips]
  exact ⟨hreadable, (output_uniquely_decodable.2.1 lookalikes hreadable).2⟩

end SpimGen
