/-
What is left of an emitter after lines are written to it.  A sink with room
for all of them receives the whole listing; any other sink receives as much of
it as there is room for, and only the lines that end within the room are
counted.
-/
import SpimGen.Emitter
import Mathlib.Data.List.Basic

namespace SpimGen

/-! ### Bytes of a listing -/

/-- Even an empty line has its newline. -/
theorem Line.bytes_length_pos (line : Line Register) :
    0 < line.bytes.length := by
  have hnewline : 0 < "\n".utf8ByteSize := by decide
  simp only [Line.bytes, String.toUTF8, String.toByteArray_append,
    ByteArray.data_append, Array.toList_append, List.length_append]
  exact Nat.add_pos_right _ hnewline

@[simp]
theorem listing_nil : listing [] = [] :=
  rfl

@[simp]
theorem listing_cons (line : Line Register) (lines : List (Line Register)) :
    listing (line :: lines) = line.bytes ++ listing lines :=
  rfl

theorem listing_append (first second : List (Line Register)) :
    listing (first ++ second) = listing first ++ listing second :=
  List.flatMap_append

/-- The byte position behind each line of a listing that begins at `start`. -/
def lineEnds : (start : Nat) → List (Line Register) → List Nat
  | _, [] => []
  | start, line :: lines =>
      (start + line.bytes.length) :: lineEnds (start + line.bytes.length) lines

theorem lineEnds_append (start : Nat) (first second : List (Line Register)) :
    lineEnds start (first ++ second) =
      lineEnds start first ++ lineEnds (start + (listing first).length) second := by
  induction first generalizing start with
  | nil => rfl
  | cons line lines ih =>
      simp only [List.cons_append, lineEnds, listing_cons, List.length_append]
      rw [ih, Nat.add_assoc]

/-- Every line ends behind the start of the listing. -/
theorem lt_of_mem_lineEnds {start position : Nat} {lines : List (Line Register)}
    (hposition : position ∈ lineEnds start lines) : start < position := by
  induction lines generalizing start with
  | nil => simp [lineEnds] at hposition
  | cons line lines ih =>
      have hpos := line.bytes_length_pos
      rcases List.mem_cons.mp hposition with rfl | hrest
      · omega
      · have hlt := ih hrest
        omega

/-- A limit before the end of the first line leaves no whole line. -/
theorem countP_lineEnds_eq_zero {start limit : Nat}
    {lines : List (Line Register)} (hlimit : limit ≤ start) :
    (lineEnds start lines).countP (· ≤ limit) = 0 := by
  rw [List.countP_eq_zero]
  intro position hposition
  have hlt := lt_of_mem_lineEnds hposition
  simp only [decide_eq_true_eq]
  omega

namespace Emitter

/-- An emitter whose sink has received some more bytes and that has counted
some more lines. -/
def receive (emitter : Emitter) (bytes : List UInt8) (count : Nat) :
    Emitter :=
  { emitter with
    sink := emitter.sink.accept bytes
    lines := emitter.lines + count }

@[simp]
theorem receive_room (emitter : Emitter) (bytes : List UInt8) (count : Nat) :
    (emitter.receive bytes count).sink.terms.room =
      emitter.sink.terms.room.map (fun room => room - bytes.length) :=
  rfl

@[simp]
theorem receive_refusal (emitter : Emitter) (bytes : List UInt8)
    (count : Nat) :
    (emitter.receive bytes count).sink.refusal = emitter.sink.refusal :=
  rfl

theorem receive_nil (emitter : Emitter) : emitter.receive [] 0 = emitter := by
  simp [receive, Sink.accept_nil]

theorem receive_receive (emitter : Emitter) (first second : List UInt8)
    (count more : Nat) :
    (emitter.receive first count).receive second more =
      emitter.receive (first ++ second) (count + more) := by
  simp [receive, Sink.accept_accept, Nat.add_assoc]

theorem write_of_fits {emitter : Emitter} {line : Line Register}
    (hfits : ∀ room, emitter.sink.terms.room = some room →
      line.bytes.length ≤ room) :
    write line emitter = ⟨.ok (), emitter.receive line.bytes 1, []⟩ := by
  have hsink : onSink (Sink.write line.bytes) emitter =
      ⟨.ok (), { emitter with sink := emitter.sink.accept line.bytes }, []⟩ := by
    simp [onSink, Action.within, Sink.write_of_fits hfits]
  rw [write, Action.bind_apply_of_ok hsink]
  rfl

theorem write_of_cut {emitter : Emitter} {line : Line Register} {room : Nat}
    (hroom : emitter.sink.terms.room = some room)
    (hcut : room < line.bytes.length) :
    write line emitter =
      ⟨.error (.sinkRefused emitter.sink.refusal),
        emitter.receive (line.bytes.take room) 0, []⟩ := by
  apply Action.bind_apply_of_error
  simp [onSink, Action.within, Sink.write_of_cut hroom hcut, receive]

theorem each_write_of_fits {emitter : Emitter} {lines : List (Line Register)}
    (hfits : ∀ room, emitter.sink.terms.room = some room →
      (listing lines).length ≤ room) :
    Action.each write lines emitter =
      ⟨.ok (), emitter.receive (listing lines) lines.length, []⟩ := by
  induction lines generalizing emitter with
  | nil =>
      rw [listing_nil, List.length_nil, receive_nil]
      rfl
  | cons line lines ih =>
      simp only [listing_cons, List.length_append] at hfits
      have hline : ∀ room, emitter.sink.terms.room = some room →
          line.bytes.length ≤ room := by
        intro room hroom
        have hall := hfits room hroom
        omega
      have hrest : ∀ room,
          (emitter.receive line.bytes 1).sink.terms.room = some room →
            (listing lines).length ≤ room := by
        intro room hroom
        rw [receive_room, Option.map_eq_some_iff] at hroom
        obtain ⟨total, htotal, rfl⟩ := hroom
        have hall := hfits total htotal
        omega
      rw [Action.each, Action.bind_apply_of_ok (write_of_fits hline), ih hrest,
        receive_receive, Nat.add_comm 1]
      rfl

/-- A sink with limited room receives the listing up to there, and the lines
that end behind the limit are not counted. -/
theorem each_write_of_room {emitter : Emitter} {room : Nat}
    (hroom : emitter.sink.terms.room = some room) (start : Nat)
    (lines : List (Line Register)) :
    Action.each write lines emitter =
      ⟨if (listing lines).length ≤ room then .ok ()
        else .error (.sinkRefused emitter.sink.refusal),
        emitter.receive ((listing lines).take room)
          ((lineEnds start lines).countP (· ≤ start + room)), []⟩ := by
  induction lines generalizing emitter room start with
  | nil =>
      rw [listing_nil, List.take_nil, lineEnds, List.countP_nil, receive_nil,
        List.length_nil, if_pos (Nat.zero_le room)]
      rfl
  | cons line lines ih =>
      by_cases hfits : line.bytes.length ≤ room
      · have hline : ∀ limit, emitter.sink.terms.room = some limit →
            line.bytes.length ≤ limit := by
          intro limit hlimit
          rw [hroom] at hlimit
          cases hlimit
          exact hfits
        have hleft : (emitter.receive line.bytes 1).sink.terms.room =
            some (room - line.bytes.length) := by
          rw [receive_room, hroom, Option.map_some]
        have hlimit : start + line.bytes.length + (room - line.bytes.length) =
            start + room := by omega
        have hend : start + line.bytes.length ≤ start + room := by omega
        have hsplit : (listing (line :: lines)).length ≤ room ↔
            (listing lines).length ≤ room - line.bytes.length := by
          rw [listing_cons, List.length_append]
          omega
        rw [Action.each, Action.bind_apply_of_ok (write_of_fits hline),
          ih hleft (start + line.bytes.length), receive_receive, hlimit,
          listing_cons, List.take_append, List.take_of_length_le hfits, lineEnds,
          List.countP_cons_of_pos (by simpa using hend), Nat.add_comm 1]
        simp only [List.nil_append, receive_refusal, hsplit, ← listing_cons]
      · have hcut : room < line.bytes.length := Nat.lt_of_not_le hfits
        have htotal : ¬ (listing (line :: lines)).length ≤ room := by
          rw [listing_cons, List.length_append]
          omega
        have hzero : (lineEnds start (line :: lines)).countP
            (· ≤ start + room) = 0 := by
          have hend : ¬ start + line.bytes.length ≤ start + room := by omega
          rw [lineEnds, List.countP_cons_of_neg (by simpa using hend)]
          exact countP_lineEnds_eq_zero (by omega)
        rw [Action.each,
          Action.bind_apply_of_error (write_of_cut hroom hcut), if_neg htotal,
          hzero, listing_cons, List.take_append_of_le_length (Nat.le_of_lt hcut)]

theorem each_write_annotate (emitter : Emitter) (lines : List (Line Register)) :
    (Action.each write lines emitter).state.annotate = emitter.annotate := by
  cases hroom : emitter.sink.terms.room with
  | none =>
      rw [each_write_of_fits (by simp [hroom])]
      rfl
  | some room =>
      rw [each_write_of_room hroom 0 lines]
      rfl

/-- Requests written one after another are the lines of all of them. -/
theorem each_emit_eq (emitter : Emitter)
    (requests : List (Emission Register)) :
    Action.each emit requests emitter =
      Action.each write
        (requests.flatMap (Emission.lines emitter.annotate)) emitter := by
  induction requests generalizing emitter with
  | nil => rfl
  | cons request requests ih =>
      rw [List.flatMap_cons, Action.each_append, Action.each]
      have hannotate := each_write_annotate emitter
        (request.lines emitter.annotate)
      cases hfirst : Action.each write (request.lines emitter.annotate)
          emitter with
      | mk result reached log =>
          rw [hfirst] at hannotate
          cases result with
          | error fault =>
              rw [Action.bind_apply_of_error hfirst]
              exact Action.bind_apply_of_error hfirst
          | ok _ =>
              rw [Action.bind_apply_of_ok hfirst]
              have hemit : emit request emitter = ⟨.ok (), reached, log⟩ := hfirst
              rw [Action.bind_apply_of_ok hemit, ih, hannotate]

/-- The lines that declare the assigned labels, if every label has a text. -/
theorem declare_of_ok {labels : LabelTable} {literals : Literals}
    {requests : List (Emission Register)}
    (hresolved : labels.declarations literals = .ok requests)
    (emitter : Emitter) :
    declare labels literals emitter =
      ⟨(Action.each write ((Emission.dataSection :: requests).flatMap
          (Emission.lines emitter.annotate)) emitter).result,
        (Action.each write ((Emission.dataSection :: requests).flatMap
          (Emission.lines emitter.annotate)) emitter).state,
        .literalsDeclared requests.length
          :: (Action.each write ((Emission.dataSection :: requests).flatMap
            (Emission.lines emitter.annotate)) emitter).log⟩ := by
  rw [← each_emit_eq, declare, hresolved]
  have hreport : (Action.report (.literalsDeclared requests.length) :
      Action Emitter Unit) emitter =
        ⟨.ok (), emitter, [.literalsDeclared requests.length]⟩ := rfl
  exact Action.bind_apply_of_ok hreport

theorem declare_of_error {labels : LabelTable} {literals : Literals}
    {fault : Fault} (hfault : labels.declarations literals = .error fault)
    (emitter : Emitter) :
    declare labels literals emitter = ⟨.error fault, emitter, []⟩ := by
  rw [declare, hfault]

end Emitter

end SpimGen
