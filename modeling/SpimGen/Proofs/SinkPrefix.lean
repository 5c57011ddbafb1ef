/-
Sinks that refuse bytes at some point.  Whatever is written, and however often
the sink has already refused, a sink with limited room ends up with the start
of what an unlimited sink receives; the lines counted are those that end within
the limit, and a request succeeds exactly if its last line does.
-/
import SpimGen.Proofs.LineWriting
import Mathlib.Data.List.Induction

namespace SpimGen

inductive Writing where
  | request (emission : Emission Register)
  /-- The declarations of all labels of a table. -/
  | declarations (labels : LabelTable) (literals : Literals)
deriving Repr, DecidableEq

theorem Emission.lines_ne_nil (request : Emission Register) (annotate : Bool) :
    request.lines annotate ≠ [] := by
  have hbody : request.body ≠ [] := by
    cases request <;> simp [Emission.body, Emission.callLines]
  cases annotate with
  | false => exact hbody
  | true => simp [hbody]

/-- Declarations fail only for want of a text. -/
theorem LabelTable.declarations_eq_error {labels : LabelTable}
    {literals : Literals} {fault : Fault}
    (hfault : labels.declarations literals = .error fault) :
    ∃ label, fault = .unresolvedLabel label := by
  obtain ⟨_, label, _, _, hlabel, _⟩ := exists_split_of_mapM_eq_error hfault
  rw [Literals.declaration] at hlabel
  split at hlabel
  · contradiction
  · cases hlabel
    exact ⟨label, rfl⟩

namespace Writing

def perform : Writing → Action Emitter Unit
  | .request emission => Emitter.emit emission
  | .declarations labels literals => Emitter.declare labels literals

/-- The lines to be written: none if a label has no text. -/
def lines (annotate : Bool) : Writing → List (Line Register)
  | .request emission => emission.lines annotate
  | .declarations labels literals =>
      match labels.declarations literals with
      | .ok requests =>
          (Emission.dataSection :: requests).flatMap (Emission.lines annotate)
      | .error _ => []

/-- Why nothing at all is written, whatever the sink. -/
def fault? : Writing → Option Fault
  | .request _ => none
  | .declarations labels literals =>
      match labels.declarations literals with
      | .ok _ => none
      | .error fault => some fault

theorem unresolvedLabel_of_fault {writing : Writing} {fault : Fault}
    (hfault : writing.fault? = some fault) :
    ∃ label, fault = .unresolvedLabel label := by
  cases writing with
  | request emission => cases hfault
  | declarations labels literals =>
      rw [fault?] at hfault
      split at hfault
      · contradiction
      · rename_i other hother
        cases hfault
        exact LabelTable.declarations_eq_error hother

theorem lines_of_fault {writing : Writing} {fault : Fault}
    (hfault : writing.fault? = some fault) (annotate : Bool) :
    writing.lines annotate = [] := by
  cases writing with
  | request emission => cases hfault
  | declarations labels literals =>
      cases hresolved : labels.declarations literals with
      | error other => simp [lines, hresolved]
      | ok requests => simp [fault?, hresolved] at hfault

theorem perform_of_fault {writing : Writing} {fault : Fault}
    (hfault : writing.fault? = some fault) (emitter : Emitter) :
    writing.perform emitter = ⟨.error fault, emitter, []⟩ := by
  cases writing with
  | request emission => cases hfault
  | declarations labels literals =>
      cases hresolved : labels.declarations literals with
      | error other =>
          simp only [fault?, hresolved, Option.some.injEq] at hfault
          subst hfault
          exact Emitter.declare_of_error hresolved emitter
      | ok requests => simp [fault?, hresolved] at hfault

/-- Without a fault of its own, a writing does what its lines do. -/
theorem perform_of_none {writing : Writing} (hnone : writing.fault? = none)
    (emitter : Emitter) :
    (writing.perform emitter).result =
        (Action.each Emitter.write (writing.lines emitter.annotate)
          emitter).result ∧
      (writing.perform emitter).state =
        (Action.each Emitter.write (writing.lines emitter.annotate)
          emitter).state := by
  cases writing with
  | request emission => exact ⟨rfl, rfl⟩
  | declarations labels literals =>
      cases hresolved : labels.declarations literals with
      | error fault => simp [fault?, hresolved] at hnone
      | ok requests =>
          simp only [perform, lines, hresolved, Emitter.declare_of_ok hresolved,
            and_self]

theorem lines_ne_nil {writing : Writing} (hnone : writing.fault? = none)
    (annotate : Bool) : writing.lines annotate ≠ [] := by
  cases writing with
  | request emission => exact emission.lines_ne_nil annotate
  | declarations labels literals =>
      cases hresolved : labels.declarations literals with
      | error fault => simp [fault?, hresolved] at hnone
      | ok requests =>
          simp [lines, hresolved, Emission.lines_ne_nil]

end Writing

namespace Emitter

def opened (terms : SinkTerms) (annotate : Bool) : Emitter :=
  { sink := { terms }, annotate }

/-- The emitter after some writings, failed ones included. -/
def follow : Emitter → List Writing → Emitter
  | emitter, [] => emitter
  | emitter, writing :: writings =>
      (writing.perform emitter).state.follow writings

@[simp]
theorem opened_receive_written (terms : SinkTerms) (annotate : Bool)
    (bytes : List UInt8) (count : Nat) :
    ((opened terms annotate).receive bytes count).sink.written = bytes :=
  rfl

@[simp]
theorem opened_receive_lines (terms : SinkTerms) (annotate : Bool)
    (bytes : List UInt8) (count : Nat) :
    ((opened terms annotate).receive bytes count).lines = count :=
  Nat.zero_add count

theorem follow_concat (emitter : Emitter) (writings : List Writing)
    (last : Writing) :
    emitter.follow (writings ++ [last]) =
      (last.perform (emitter.follow writings)).state := by
  induction writings generalizing emitter with
  | nil => rfl
  | cons writing writings ih => exact ih (writing.perform emitter).state

theorem perform_of_unlimited {emitter : Emitter}
    (hroom : emitter.sink.terms.room = none) (bytes : List UInt8)
    (count : Nat) {writing : Writing} (hnone : writing.fault? = none) :
    (writing.perform (emitter.receive bytes count)).result = .ok () ∧
      (writing.perform (emitter.receive bytes count)).state =
        emitter.receive
          (bytes ++ listing (writing.lines emitter.annotate))
          (count + (writing.lines emitter.annotate).length) := by
  have hfits : ∀ room,
      (emitter.receive bytes count).sink.terms.room = some room →
        (listing (writing.lines emitter.annotate)).length ≤ room := by
    simp [hroom]
  obtain ⟨hresult, hstate⟩ :=
    Writing.perform_of_none hnone (emitter.receive bytes count)
  have heach := each_write_of_fits hfits
  rw [receive_receive] at heach
  exact ⟨hresult.trans (congrArg Outcome.result heach),
    hstate.trans (congrArg Outcome.state heach)⟩

theorem follow_of_unlimited {emitter : Emitter}
    (hroom : emitter.sink.terms.room = none) (writings : List Writing) :
    emitter.follow writings =
      emitter.receive
        (listing (writings.flatMap (Writing.lines emitter.annotate)))
        (writings.flatMap (Writing.lines emitter.annotate)).length := by
  induction writings using List.reverseRecOn with
  | nil => exact (receive_nil emitter).symm
  | append_singleton writings last ih =>
      rw [follow_concat, ih, List.flatMap_append, List.flatMap_singleton]
      cases hfault : last.fault? with
      | some fault =>
          rw [Writing.perform_of_fault hfault, Writing.lines_of_fault hfault,
            List.append_nil]
      | none =>
          rw [(perform_of_unlimited hroom _ _ hfault).2, listing_append,
            List.length_append]

/-- What the limit leaves of further lines, once `lines` have been written. -/
theorem each_write_after {emitter : Emitter} {cap : Nat}
    (hroom : emitter.sink.terms.room = some cap)
    (lines : List (Line Register)) {more : List (Line Register)}
    (hmore : more ≠ []) :
    Action.each write more (emitter.receive ((listing lines).take cap)
        ((lineEnds 0 lines).countP (· ≤ cap))) =
      ⟨if (listing (lines ++ more)).length ≤ cap then .ok ()
        else .error (.sinkRefused emitter.sink.refusal),
        emitter.receive ((listing (lines ++ more)).take cap)
          ((lineEnds 0 (lines ++ more)).countP (· ≤ cap)), []⟩ := by
  have hleft : (emitter.receive ((listing lines).take cap)
      ((lineEnds 0 lines).countP (· ≤ cap))).sink.terms.room =
        some (cap - (listing lines).length) := by
    rw [receive_room, hroom, Option.map_some, List.length_take]
    congr 1
    omega
  have hpos : 0 < (listing more).length := by
    cases more with
    | nil => exact absurd rfl hmore
    | cons line rest =>
        rw [listing_cons, List.length_append]
        exact Nat.add_pos_left line.bytes_length_pos _
  have hfits : (listing more).length ≤ cap - (listing lines).length ↔
      (listing (lines ++ more)).length ≤ cap := by
    rw [listing_append, List.length_append]
    omega
  -- Behind a full sink both limits lie before the first line that is left.
  have hcount : (lineEnds (listing lines).length more).countP
      (· ≤ (listing lines).length + (cap - (listing lines).length)) =
        (lineEnds (listing lines).length more).countP (· ≤ cap) := by
    by_cases hle : (listing lines).length ≤ cap
    · rw [Nat.add_sub_cancel' hle]
    · rw [countP_lineEnds_eq_zero (by omega),
        countP_lineEnds_eq_zero (by omega)]
  rw [each_write_of_room hleft (listing lines).length more, receive_receive,
    hcount, ← List.countP_append, listing_append, List.take_append,
    lineEnds_append, Nat.zero_add]
  simp only [hfits, listing_append, receive_refusal]

theorem perform_of_room {emitter : Emitter} {cap : Nat}
    (hroom : emitter.sink.terms.room = some cap)
    (lines : List (Line Register)) {writing : Writing}
    (hnone : writing.fault? = none) :
    (writing.perform (emitter.receive ((listing lines).take cap)
        ((lineEnds 0 lines).countP (· ≤ cap)))).result =
        (if (listing (lines ++ writing.lines emitter.annotate)).length ≤ cap
          then .ok () else .error (.sinkRefused emitter.sink.refusal)) ∧
      (writing.perform (emitter.receive ((listing lines).take cap)
        ((lineEnds 0 lines).countP (· ≤ cap)))).state =
        emitter.receive
          ((listing (lines ++ writing.lines emitter.annotate)).take cap)
          ((lineEnds 0 (lines ++ writing.lines emitter.annotate)).countP
            (· ≤ cap)) := by
  obtain ⟨hresult, hstate⟩ := Writing.perform_of_none hnone
    (emitter.receive ((listing lines).take cap)
      ((lineEnds 0 lines).countP (· ≤ cap)))
  have heach := each_write_after hroom lines
    (Writing.lines_ne_nil hnone emitter.annotate)
  exact ⟨hresult.trans (congrArg Outcome.result heach),
    hstate.trans (congrArg Outcome.state heach)⟩

/-- A limited sink receives the same listing up to its limit. -/
theorem follow_of_room {emitter : Emitter} {cap : Nat}
    (hroom : emitter.sink.terms.room = some cap) (writings : List Writing) :
    emitter.follow writings =
      emitter.receive
        ((listing (writings.flatMap
          (Writing.lines emitter.annotate))).take cap)
        ((lineEnds 0 (writings.flatMap
          (Writing.lines emitter.annotate))).countP (· ≤ cap)) := by
  induction writings using List.reverseRecOn with
  | nil => simp [follow, lineEnds, receive_nil]
  | append_singleton writings last ih =>
      rw [follow_concat, ih, List.flatMap_append, List.flatMap_singleton]
      cases hfault : last.fault? with
      | some fault =>
          rw [Writing.perform_of_fault hfault, Writing.lines_of_fault hfault,
            List.append_nil]
      | none =>
          rw [(perform_of_room hroom _ hfault).2]

end Emitter

/-- The sink-prefix law, for the state after any writings and for any further
one. -/
theorem Emitter.written_eq_take_of_unlimited (terms : SinkTerms) (cap : Nat)
    (annotate : Bool) (writings : List Writing) (next : Writing) :
    let full := (opened { terms with room := none } annotate).follow writings
    let cut := (opened { terms with room := some cap } annotate).follow writings
    let lines := writings.flatMap (Writing.lines annotate)
    full.sink.written = listing lines ∧
    full.lines = lines.length ∧
    cut.sink.written = full.sink.written.take cap ∧
    cut.lines = (lineEnds 0 lines).countP (· ≤ cap) ∧
    ((next.perform full).result = .ok () →
      next.lines annotate ≠ [] ∧
      (next.perform full).state.sink.written =
        full.sink.written ++ listing (next.lines annotate) ∧
      (next.perform cut).result =
        if (next.perform full).state.sink.written.length ≤ cap then .ok ()
        else .error (.sinkRefused (Sink.refusal { terms }))) ∧
    (∀ fault, (next.perform full).result = .error fault →
      (∃ label, fault = .unresolvedLabel label) ∧
      (next.perform full).state = full ∧
      (next.perform cut).result = .error fault ∧
      (next.perform cut).state = cut) := by
  intro full cut lines
  have hfull : full = (opened { terms with room := none } annotate).receive
      (listing lines) lines.length := follow_of_unlimited rfl writings
  have hcut : cut = (opened { terms with room := some cap } annotate).receive
      ((listing lines).take cap) ((lineEnds 0 lines).countP (· ≤ cap)) :=
    follow_of_room rfl writings
  have hwritten : full.sink.written = listing lines := by
    rw [hfull, opened_receive_written]
  refine ⟨hwritten, ?_, ?_, ?_, ?_⟩
  · rw [hfull, opened_receive_lines]
  · rw [hcut, hwritten, opened_receive_written]
  · rw [hcut, opened_receive_lines]
  · cases hfault : next.fault? with
    | some fault =>
        rw [Writing.perform_of_fault hfault, Writing.perform_of_fault hfault]
        refine ⟨fun hok => absurd hok (by simp), ?_⟩
        intro other hother
        cases hother
        exact ⟨Writing.unresolvedLabel_of_fault hfault, rfl, rfl, rfl⟩
    | none =>
        obtain ⟨hfullResult, hfullState⟩ := perform_of_unlimited
          (rfl : (opened { terms with room := none } annotate).sink.terms.room
            = none) (listing lines) lines.length hfault
        obtain ⟨hcutResult, _⟩ := perform_of_room
          (rfl : (opened { terms with room := some cap }
            annotate).sink.terms.room = some cap) lines hfault
        rw [← hfull] at hfullResult hfullState
        rw [← hcut] at hcutResult
        have hreached : (next.perform full).state.sink.written =
            full.sink.written ++ listing (next.lines annotate) := by
          rw [hfullState, hwritten]
          rfl
        refine ⟨fun _ => ⟨Writing.lines_ne_nil hfault annotate, hreached, ?_⟩,
          ?_⟩
        · rw [hcutResult, hreached, hwritten, ← listing_append]
          rfl
        · intro fault herror
          rw [hfullResult] at herror
          cases herror

end SpimGen
