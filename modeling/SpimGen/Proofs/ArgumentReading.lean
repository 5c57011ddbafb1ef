/-
What the arguments of the program decide.  Annotations are asked for by one
argument only, spelled out in full and standing alone; no other option, and no
way of writing or ordering the others, has a say in it.
-/
import SpimGen.CommandLine
import SpimGen.Proofs.ActionRun
import Mathlib.Data.List.TakeDrop

namespace SpimGen

theorem LongOption.ofName?_eq_annotate {name : String}
    (hname : ofName? name = some .annotate) : name = "annotate" := by
  unfold ofName? at hname
  split at hname <;> first | rfl | cases hname

namespace CommandLine.Reader

variable {reader next : Reader}

/-! ### Options that are not about annotations -/

theorem annotate_of_takeOutput {path : String}
    (htake : reader.takeOutput path = .ok next) :
    next.options.annotate = reader.options.annotate := by
  rw [takeOutput] at htake
  split at htake
  · cases htake
  · split at htake
    · cases htake
    · cases htake
      rfl

theorem annotate_of_settle (hsettle : reader.settle = .ok next) :
    next.options.annotate = reader.options.annotate := by
  rw [settle] at hsettle
  split at hsettle
  · cases hsettle
    rfl
  · cases hsettle
  · have hsame := annotate_of_takeOutput hsettle
    exact hsame

theorem annotate_of_attachOutput {path : String}
    (hattach : reader.attachOutput path = .ok next) :
    next.options.annotate = reader.options.annotate := by
  obtain ⟨settled, hsettle, htake⟩ := exists_of_bind_eq_ok hattach
  rw [annotate_of_takeOutput htake, annotate_of_settle hsettle]

theorem annotate_of_settle_change {change : Reader → Reader}
    (hchange : ∀ settled : Reader,
      (change settled).options.annotate = settled.options.annotate)
    (hread : (do return change (← reader.settle)) = Except.ok next) :
    next.options.annotate = reader.options.annotate := by
  obtain ⟨settled, hsettle, hnext⟩ := exists_of_bind_eq_ok hread
  cases hnext
  rw [hchange, annotate_of_settle hsettle]

theorem annotate_of_announceOutput
    (hannounce : reader.announceOutput = .ok next) :
    next.options.annotate = reader.options.annotate := by
  apply annotate_of_settle_change _ hannounce
  exact fun _ => rfl

theorem annotate_of_addVerbose (hadd : reader.addVerbose = .ok next) :
    next.options.annotate = reader.options.annotate := by
  apply annotate_of_settle_change _ hadd
  exact fun _ => rfl

theorem stop_ne_ok (reader : Reader) (halt : Halt) (next : Reader) :
    reader.stop halt ≠ .ok next := by
  intro hstop
  obtain ⟨_, _, hhalt⟩ := exists_of_bind_eq_ok hstop
  cases hhalt

theorem annotate_of_readLetters {letters : List Char}
    (hread : reader.readLetters letters = .ok next) :
    next.options.annotate = reader.options.annotate := by
  fun_induction readLetters reader letters with
  | case1 reader =>
      cases hread
      rfl
  | case2 reader rest ih =>
      obtain ⟨middle, hadd, hrest⟩ := exists_of_bind_eq_ok hread
      rw [ih middle hrest, annotate_of_addVerbose hadd]
  | case3 reader => exact absurd hread (stop_ne_ok reader .help next)
  | case4 reader => exact absurd hread (stop_ne_ok reader .version next)
  | case5 reader => exact annotate_of_announceOutput hread
  | case6 reader path => exact annotate_of_attachOutput hread
  | case7 reader path => exact annotate_of_attachOutput hread
  | case8 reader letter => cases hread

theorem annotate_of_readPlain {argument : String}
    (hread : reader.readPlain argument = .ok next) :
    next.options.annotate = reader.options.annotate := by
  rw [readPlain] at hread
  split at hread
  · cases hread
    rfl
  · cases hread

/-! ### The option for annotations -/

theorem annotate_of_setAnnotate (hset : reader.setAnnotate = .ok next) :
    next.options.annotate = true := by
  obtain ⟨settled, _, hnext⟩ := exists_of_bind_eq_ok hset
  split at hnext
  · cases hnext
  · cases hnext
    rfl

theorem annotate_of_accept {option : LongOption}
    (haccept : reader.accept option = .ok next) :
    next.options.annotate = true ↔
      reader.options.annotate = true ∨ option = .annotate := by
  cases option with
  | output => simp [annotate_of_announceOutput haccept]
  | annotate => simp [annotate_of_setAnnotate haccept]
  | verbose => simp [annotate_of_addVerbose haccept]
  | help => exact absurd haccept (stop_ne_ok reader .help next)
  | version => exact absurd haccept (stop_ne_ok reader .version next)

/-- The name of the option is all of the argument unless a value is attached. -/
theorem annotate_of_readLong {text : List Char}
    (hread : reader.readLong text = .ok next) :
    next.options.annotate = true ↔
      reader.options.annotate = true ∨ text = "annotate".toList := by
  by_cases htext : text = "annotate".toList
  · subst htext
    have hset : reader.setAnnotate = .ok next := hread
    simp [annotate_of_setAnnotate hset]
  · rcases hspan : text.span (· ≠ '=') with ⟨name, rest⟩
    have hname : name ++ rest = text := by
      rw [List.span_eq_takeWhile_dropWhile] at hspan
      cases hspan
      exact List.takeWhile_append_dropWhile
    rw [readLong, hspan] at hread
    simp only at hread
    split at hread
    · cases hread
    · rename_i option hoption
      have hother : option ≠ .annotate := by
        rintro rfl
        apply htext
        rw [← hname, List.append_nil,
          ← LongOption.ofName?_eq_annotate hoption, String.toList_ofList]
      rw [annotate_of_accept hread, or_iff_left hother, or_iff_left htext]
    · rw [annotate_of_attachOutput hread, or_iff_left htext]
    · cases hread

/-- Annotations are asked for by the argument `--annotate` and nothing else. -/
theorem annotate_of_readAll {arguments : List String} {options : Options}
    (hread : reader.readAll arguments = .ok options) :
    options.annotate = true ↔
      reader.options.annotate = true ∨ "--annotate" ∈ arguments := by
  have hsettled : ∀ {reader : Reader},
      (do return (← reader.settle).options) = Except.ok options →
        options.annotate = reader.options.annotate := by
    intro reader hread
    obtain ⟨settled, hsettle, hoptions⟩ := exists_of_bind_eq_ok hread
    have hsame := annotate_of_settle hsettle
    cases hoptions
    exact hsame
  fun_induction readAll reader arguments with
  | case1 reader => simp [hsettled hread]
  | case2 reader argument htext =>
      have hne : "--annotate" ≠ argument := by
        rintro rfl
        exact absurd htext (by decide)
      simp [hsettled hread, hne]
  | case3 => cases hread
  | case4 reader argument rest text _ htext ih =>
      obtain ⟨next, hlong, hrest⟩ := exists_of_bind_eq_ok hread
      have heq : "--annotate" = argument ↔ text = "annotate".toList := by
        rw [← String.toList_inj, htext]
        simp [eq_comm]
      have hnext : options.annotate = true ↔
          next.options.annotate = true ∨ "--annotate" ∈ rest := ih next hrest
      rw [hnext, annotate_of_readLong hlong, List.mem_cons, heq,
        or_assoc]
  | case5 reader argument rest letter letters _ hletter htext ih =>
      obtain ⟨next, hletters, hrest⟩ := exists_of_bind_eq_ok hread
      have hne : "--annotate" ≠ argument := by
        rintro rfl
        cases htext
        exact hletter rfl
      have hnext : options.annotate = true ↔
          next.options.annotate = true ∨ "--annotate" ∈ rest := ih next hrest
      rw [hnext, annotate_of_readLetters hletters, List.mem_cons,
        or_iff_right hne]
  | case6 reader argument rest _ hlong _ ih =>
      obtain ⟨next, hplain, hrest⟩ := exists_of_bind_eq_ok hread
      have hne : "--annotate" ≠ argument := by
        rintro rfl
        exact hlong "annotate".toList rfl
      have hnext : options.annotate = true ↔
          next.options.annotate = true ∨ "--annotate" ∈ rest := ih next hrest
      rw [hnext, annotate_of_readPlain hplain, List.mem_cons,
        or_iff_right hne]

end CommandLine.Reader

theorem CommandLine.annotate_iff_mem {arguments : List String}
    {options : Options} (hparse : parse arguments = .ok options) :
    options.annotate = true ↔ "--annotate" ∈ arguments := by
  rw [Reader.annotate_of_readAll hparse]
  simp

end SpimGen
