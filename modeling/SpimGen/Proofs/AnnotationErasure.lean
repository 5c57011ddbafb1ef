/-
Annotated listings without their annotations.  Deleting the lines that begin
with a number sign from an annotated listing leaves, byte for byte, the listing
that is written without annotations: each annotation is exactly one line, and no
other line can be taken for one.
-/
import SpimGen.Proofs.SinkPrefix
import SpimGen.Proofs.UniqueDecoding

namespace SpimGen

/-! ### Bytes of a text -/

def newlineByte : UInt8 := 10

def numberSignByte : UInt8 := 35

theorem toUTF8_eq_flatMap (text : String) :
    text.toUTF8.data.toList = text.toList.flatMap String.utf8EncodeChar := by
  obtain ⟨chars, rfl⟩ : ∃ chars, text = String.ofList chars :=
    ⟨text.toList, String.ofList_toList.symm⟩
  rw [String.toUTF8_eq_toByteArray, String.toByteArray_ofList, List.utf8Encode,
    List.data_toByteArray, List.toList_toArray, String.toList_ofList]

/-- A byte below 128 stands for the character with its number and is part of
no other. -/
theorem eq_of_mem_utf8EncodeChar {byte : UInt8} {char : Char}
    (hascii : byte.toNat < 128) (hbyte : byte ∈ String.utf8EncodeChar char) :
    char = Char.ofNat byte.toNat := by
  have hnumber : char.toNat = byte.toNat := by
    simp only [String.utf8EncodeChar] at hbyte
    split_ifs at hbyte with hone htwo hthree <;>
      simp only [List.mem_cons, List.not_mem_nil, or_false] at hbyte
    · rw [hbyte, UInt8.toNat_ofNat', Nat.mod_eq_of_lt (by omega)]
      rfl
    · rcases hbyte with rfl | rfl <;> simp at hascii <;> omega
    · rcases hbyte with rfl | rfl | rfl <;> simp at hascii <;> omega
    · rcases hbyte with rfl | rfl | rfl | rfl <;> simp at hascii <;> omega
  rw [← hnumber, Char.ofNat_toNat]

theorem newlineByte_notMem {text : String} (htext : '\n' ∉ text.toList) :
    newlineByte ∉ text.toUTF8.data.toList := by
  rw [toUTF8_eq_flatMap, List.mem_flatMap]
  rintro ⟨char, hchar, hbyte⟩
  rw [eq_of_mem_utf8EncodeChar (by decide) hbyte] at hchar
  exact htext hchar

theorem head?_toUTF8_eq_iff (text : String) :
    text.toUTF8.data.toList.head? = some numberSignByte ↔
      text.toList.head? = some '#' := by
  rw [toUTF8_eq_flatMap]
  cases text.toList with
  | nil => simp
  | cons char chars =>
      rw [List.flatMap_cons, List.head?_append_of_ne_nil _
        String.utf8EncodeChar_ne_nil, List.head?_cons, Option.some.injEq]
      constructor
      · intro hhead
        exact eq_of_mem_utf8EncodeChar (by decide) (List.mem_of_head? hhead)
      · rintro rfl
        rfl

/-! ### Lines of a listing -/

/-- The bytes of a line, without its newline. -/
def Line.textBytes (line : Line Register) : List UInt8 :=
  line.render.toUTF8.data.toList

theorem Line.bytes_eq (line : Line Register) :
    line.bytes = line.textBytes ++ [newlineByte] := by
  rw [bytes, textBytes, toUTF8_eq_flatMap, toUTF8_eq_flatMap,
    String.toList_append, List.flatMap_append]
  rfl

/-- Deletes the lines that begin with a number sign. -/
def eraseComments (bytes : List UInt8) : List UInt8 :=
  [newlineByte].intercalate
    ((bytes.splitOn newlineByte).filter
      (fun line => line.head? != some numberSignByte))

/-- Behind the last newline nothing is left. -/
theorem splitOn_listing {lines : List (Line Register)}
    (hlines : ∀ line ∈ lines, '\n' ∉ line.render.toList) :
    (listing lines).splitOn newlineByte =
      lines.map Line.textBytes ++ [[]] := by
  induction lines with
  | nil => rfl
  | cons line lines ih =>
      obtain ⟨hline, hrest⟩ := List.forall_mem_cons.mp hlines
      have hsplit : line.textBytes.splitOn newlineByte = [line.textBytes] :=
        List.splitOn_eq_singleton (newlineByte_notMem hline)
      rw [listing_cons, line.bytes_eq, List.append_assoc, List.singleton_append,
        List.splitOn_append_cons_self, hsplit, ih hrest]
      rfl

def Line.isComment {ρ : Type} : Line ρ → Bool
  | .comment _ | .banner _ => true
  | .instruction _ | .labeled _ _ | .dataSection | .textSection | .global _
  | .string _ _ => false

/-- The line is a single line of the listing, and begins with a number sign
exactly if it is a comment. -/
structure Line.Distinct (line : Line Register) : Prop where
  single : '\n' ∉ line.render.toList
  head_iff : line.render.toList.head? = some '#' ↔ line.isComment = true

theorem Line.Distinct.head?_textBytes {line : Line Register}
    (hline : line.Distinct) :
    (line.textBytes.head? == some numberSignByte) = line.isComment := by
  rw [Bool.eq_iff_iff, beq_iff_eq, textBytes, head?_toUTF8_eq_iff,
    hline.head_iff]

theorem eraseComments_listing {lines : List (Line Register)}
    (hlines : ∀ line ∈ lines, line.Distinct) :
    eraseComments (listing lines) =
      listing (lines.filter (fun line => !line.isComment)) := by
  have hkept : ((lines.map Line.textBytes ++ [[]]).filter
      (fun line => line.head? != some numberSignByte)) =
        (lines.filter (fun line => !line.isComment)).map Line.textBytes ++
          [[]] := by
    rw [List.filter_append, List.filter_map]
    congr 2
    apply List.filter_congr
    intro line hline
    rw [Function.comp_apply, bne, (hlines line hline).head?_textBytes]
  -- What is kept is again the split of a listing, so joining it undoes a split.
  rw [eraseComments, splitOn_listing (fun line hline => (hlines line hline).single),
    hkept, ← splitOn_listing, List.intercalate_splitOn]
  intro line hline
  exact (hlines line (List.mem_of_mem_filter hline)).single

/-! ### Annotations -/

/-- A line of a MIPS listing that is no comment: none of its texts has a
newline, and its label does not begin with a number sign. -/
@[mk_iff]
structure Line.Solid (line : Line Register) : Prop where
  registers_mips : line.registers ⊆ Mips.catalog.registers
  texts_single : ∀ text ∈ line.texts, '\n' ∉ text.toList
  label_plain : ∀ label ∈ line.label?, label.toList.head? ≠ some '#'
  not_comment : line.isComment = false

instance : DecidablePred Line.Solid := fun line =>
  decidable_of_iff _ (Line.solid_iff line).symm

theorem head?_append_colon {label : List Char} (hlabel : label.head? ≠ some '#')
    (rest : List Char) : (label ++ ':' :: rest).head? ≠ some '#' := by
  cases label with
  | nil => simp
  | cons char label => exact hlabel

theorem Line.Solid.head?_render {line : Line Register} (hline : line.Solid) :
    line.render.toList.head? ≠ some '#' := by
  obtain ⟨-, -, hlabel, hcomment⟩ := hline
  cases line with
  | instruction instr => simp [render]
  | labeled label instr =>
      have hhead := head?_append_colon (hlabel label rfl)
        (' ' :: instr.render.toList)
      simpa [render] using hhead
  | dataSection => decide
  | textSection => decide
  | global symbol => simp [render]
  | string label text =>
      have hhead := head?_append_colon (hlabel label rfl)
        (" .asciiz \"".toList ++ text.toList ++ ['"'])
      simpa [render] using hhead
  | comment text => cases hcomment
  | banner text => cases hcomment

theorem Line.Solid.distinct {line : Line Register} (hline : line.Solid) :
    line.Distinct where
  single := line.newline_notMem_render hline.registers_mips hline.texts_single
  head_iff := by
    rw [hline.not_comment]
    exact iff_of_false hline.head?_render (by decide)

theorem Line.head?_render_of_isComment {line : Line Register}
    (hcomment : line.isComment = true) :
    line.render.toList.head? = some '#' := by
  cases line with
  | comment | banner => simp [render]
  | instruction | labeled | dataSection | textSection | global | string =>
      cases hcomment

namespace Emission

theorem annotation_isComment (request : Emission Register) :
    ∀ line ∈ request.annotation, line.isComment = true := by
  cases request <;> simp [Line.isComment, annotation]

/-- An annotation names registers and labels of the lines that follow it. -/
theorem annotation_single {request : Emission Register}
    (hbody : ∀ line ∈ request.body, line.Solid) :
    ∀ line ∈ request.annotation, '\n' ∉ line.render.toList := by
  have hname : ∀ reg ∈ request.body.flatMap Line.registers,
      '\n' ∉ reg.name.toList := by
    intro reg hreg
    obtain ⟨line, hline, hmem⟩ := List.mem_flatMap.mp hreg
    exact notMem_register_name ((hbody line hline).registers_mips hmem)
      (by decide)
  have hmnemonic : ∀ op : ArithOp, '\n' ∉ op.mnemonic.toList := fun op =>
    (Form.arith op).notMem_mnemonic (by decide)
  have hnumber : ∀ value : Int32, '\n' ∉ (decimal value).toList := fun value =>
    notMem_decimal value (by decide) (by decide)
  cases request with
  | arith op dest lhs rhs =>
      have hregs : ∀ reg ∈ [dest, lhs, rhs], '\n' ∉ reg.name.toList := hname
      simp only [List.forall_mem_cons] at hregs
      simp [Line.render, annotation, hregs, hmnemonic]
  | arithImm op dest src value =>
      have hregs : ∀ reg ∈ [dest, src], '\n' ∉ reg.name.toList := hname
      simp only [List.forall_mem_cons] at hregs
      simp [Line.render, annotation, hregs, hmnemonic, hnumber]
  | load reg base offset | store reg base offset =>
      have hregs : ∀ other ∈ [reg, base], '\n' ∉ other.name.toList := hname
      simp only [List.forall_mem_cons] at hregs
      simp [Line.render, annotation, hregs, hnumber]
  | loadImm dest value =>
      have hdest : '\n' ∉ dest.name.toList := hname dest List.mem_cons_self
      simp [Line.render, annotation, hdest, hnumber]
  | readInt dest =>
      have hdest : '\n' ∉ dest.name.toList :=
        hname dest (List.mem_cons_of_mem Mips.v0 List.mem_cons_self)
      simp [Line.render, annotation, hdest]
  | loadAddr dest label =>
      have hlabel : '\n' ∉ label.toList :=
        (hbody _ List.mem_cons_self).texts_single label List.mem_cons_self
      have hdest : '\n' ∉ dest.name.toList := hname dest List.mem_cons_self
      simp [Line.render, annotation, hdest, hlabel]
  | printInt | printRegister | printString | printNewline | prolog | epilog
  | dataSection | string | call | raw => simp [Line.render, annotation]

theorem distinct_of_mem_lines {request : Emission Register}
    (hbody : ∀ line ∈ request.body, line.Solid) :
    ∀ line ∈ request.lines true, line.Distinct := by
  intro line hline
  rw [lines_true, List.mem_append, Option.mem_toList] at hline
  rcases hline with hannotation | hline
  · have hcomment := request.annotation_isComment line hannotation
    exact ⟨annotation_single hbody line hannotation,
      iff_of_true (Line.head?_render_of_isComment hcomment) hcomment⟩
  · exact (hbody line hline).distinct

theorem filter_lines {request : Emission Register}
    (hbody : ∀ line ∈ request.body, line.Solid) :
    (request.lines true).filter (fun line => !line.isComment) =
      request.body := by
  have hannotation : request.annotation.toList.filter
      (fun line => !line.isComment) = [] := by
    rw [List.filter_eq_nil_iff]
    intro line hline
    rw [request.annotation_isComment line (Option.mem_toList.mp hline)]
    decide
  have hkept : request.body.filter (fun line => !line.isComment) =
      request.body := by
    rw [List.filter_eq_self]
    intro line hline
    rw [(hbody line hline).not_comment, Bool.not_false]
  rw [lines_true, List.filter_append, hannotation, hkept, List.nil_append]

end Emission

theorem eraseComments_flatMap_lines {requests : List (Emission Register)}
    (hbody : ∀ request ∈ requests, ∀ line ∈ request.body, line.Solid) :
    eraseComments (listing (requests.flatMap (Emission.lines true))) =
      listing (requests.flatMap (Emission.lines false)) := by
  have hdistinct : ∀ line ∈ requests.flatMap (Emission.lines true),
      line.Distinct := by
    intro line hline
    obtain ⟨request, hrequest, hmem⟩ := List.mem_flatMap.mp hline
    exact Emission.distinct_of_mem_lines (hbody request hrequest) line hmem
  rw [eraseComments_listing hdistinct, List.filter_flatMap]
  congr 1
  exact List.flatMap_congr (fun request hrequest =>
    Emission.filter_lines (hbody request hrequest))

theorem head?_of_mem_splitOn_listing {lines : List (Line Register)}
    (hlines : ∀ line ∈ lines, line.Solid) :
    ∀ bytes ∈ (listing lines).splitOn newlineByte,
      bytes.head? ≠ some numberSignByte := by
  rw [splitOn_listing (fun line hline => (hlines line hline).distinct.single)]
  intro bytes hbytes
  rcases List.mem_append.mp hbytes with hmem | hlast
  · obtain ⟨line, hline, rfl⟩ := List.mem_map.mp hmem
    have hhead := (hlines line hline).distinct.head?_textBytes
    rw [(hlines line hline).not_comment, beq_eq_false_iff_ne] at hhead
    exact hhead
  · rw [List.mem_singleton.mp hlast]
    simp

/-! ### Runs -/

namespace Writing

/-- The requests that a writing comes down to: none if a label has no text. -/
def requests : Writing → List (Emission Register)
  | .request emission => [emission]
  | .declarations labels literals =>
      match labels.declarations literals with
      | .ok requests => .dataSection :: requests
      | .error _ => []

theorem lines_eq_flatMap (annotate : Bool) (writing : Writing) :
    writing.lines annotate =
      writing.requests.flatMap (Emission.lines annotate) := by
  cases writing with
  | request emission => simp [lines, requests]
  | declarations labels literals =>
      rw [lines, requests]
      cases labels.declarations literals with
      | ok requests => rfl
      | error fault => rfl

theorem flatMap_lines (annotate : Bool) (writings : List Writing) :
    writings.flatMap (lines annotate) =
      (writings.flatMap requests).flatMap (Emission.lines annotate) := by
  rw [List.flatMap_assoc]
  exact List.flatMap_congr (fun writing _ => lines_eq_flatMap annotate writing)

/-- What a writing yields on a sink without limits. -/
def outcome (writing : Writing) : Except Fault Unit :=
  match writing.fault? with
  | none => .ok ()
  | some fault => .error fault

end Writing

namespace Emitter

/-- The results of some writings, one after another. -/
def results : Emitter → List Writing → List (Except Fault Unit)
  | _, [] => []
  | emitter, writing :: writings =>
      (writing.perform emitter).result
        :: (writing.perform emitter).state.results writings

theorem perform_result_of_unlimited {emitter : Emitter}
    (hroom : emitter.sink.terms.room = none) (writing : Writing) :
    (writing.perform emitter).result = writing.outcome ∧
      (writing.perform emitter).state.sink.terms.room = none := by
  rw [Writing.outcome]
  cases hfault : writing.fault? with
  | some fault =>
      rw [Writing.perform_of_fault hfault]
      exact ⟨rfl, hroom⟩
  | none =>
      obtain ⟨hresult, hstate⟩ := perform_of_unlimited hroom [] 0 hfault
      rw [receive_nil] at hresult hstate
      rw [hstate, receive_room, hroom]
      exact ⟨hresult, rfl⟩

theorem results_of_unlimited {emitter : Emitter}
    (hroom : emitter.sink.terms.room = none) (writings : List Writing) :
    emitter.results writings = writings.map Writing.outcome := by
  induction writings generalizing emitter with
  | nil => rfl
  | cons writing writings ih =>
      obtain ⟨hresult, hnext⟩ := perform_result_of_unlimited hroom writing
      rw [results, hresult, ih hnext, List.map_cons]

theorem written_of_unlimited (terms : SinkTerms) (annotate : Bool)
    (writings : List Writing) :
    ((opened { terms with room := none } annotate).follow
        writings).sink.written =
      listing ((writings.flatMap Writing.requests).flatMap
        (Emission.lines annotate)) := by
  rw [follow_of_unlimited rfl, ← Writing.flatMap_lines]
  rfl

/-- Deleting the comments of an annotated listing gives the listing without
annotations, which has no comments; and annotations change no result. -/
theorem eraseComments_annotated (terms : SinkTerms) (writings : List Writing)
    (hsolid : ∀ writing ∈ writings, ∀ line ∈ writing.lines false, line.Solid) :
    let annotated := opened { terms with room := none } true
    let plain := opened { terms with room := none } false
    eraseComments (annotated.follow writings).sink.written =
      (plain.follow writings).sink.written ∧
    annotated.results writings = plain.results writings ∧
    ∀ line ∈ (plain.follow writings).sink.written.splitOn newlineByte,
      line.head? ≠ some numberSignByte := by
  intro annotated plain
  have hlines : ∀ line ∈ (writings.flatMap Writing.requests).flatMap
      (Emission.lines false), line.Solid := by
    rw [← Writing.flatMap_lines]
    intro line hline
    obtain ⟨writing, hwriting, hmem⟩ := List.mem_flatMap.mp hline
    exact hsolid writing hwriting line hmem
  have hbody : ∀ request ∈ writings.flatMap Writing.requests,
      ∀ line ∈ request.body, line.Solid := fun request hrequest line hline =>
    hlines line (List.mem_flatMap_of_mem hrequest hline)
  refine ⟨?_, ?_, ?_⟩
  · rw [written_of_unlimited, written_of_unlimited]
    exact eraseComments_flatMap_lines hbody
  · rw [results_of_unlimited rfl, results_of_unlimited rfl]
  · rw [written_of_unlimited]
    exact head?_of_mem_splitOn_listing hlines

end Emitter

/-- Writings with number signs wherever they are allowed, and a label that has
no text. -/
def Writing.disguised : List Writing :=
  [.request .prolog, .request (.loadAddr Mips.a0 "# prolog"),
   .request (.printRegister Mips.zero), .request (.string "s" "#\tt0 = 1"),
   .request (.raw (.labeled "" (.move Mips.v0 Mips.gp))),
   .declarations ⟨1⟩ {}, .declarations ⟨1⟩ ⟨[("__str0", "# text")]⟩]

theorem Emitter.eraseComments_disguised :
    (∀ writing ∈ Writing.disguised, ∀ line ∈ writing.lines false,
      line.Solid) ∧
    eraseComments ((opened {} true).follow Writing.disguised).sink.written =
      ((opened {} false).follow Writing.disguised).sink.written := by
  have hsolid : ∀ writing ∈ Writing.disguised, ∀ line ∈ writing.lines false,
      line.Solid := by decide
  exact ⟨hsolid, (eraseComments_annotated {} Writing.disguised hsolid).1⟩

end SpimGen
