/-
How completing a compilation ends.  The end of the program is written first,
then the string table, and last the sink is flushed.  Whatever goes wrong ends
it at that point: what was written before stays, and what comes after is not
tried.  So a lack of room for the end of the program is reported even if a label
has no text, a label without a text is reported before the table is begun, and
the sink is flushed only if everything has been written.

This holds in every state that the steps of a session lead to: there the table
of each pool shows which registers are held, so the first report is right and
the second cannot fail.
-/
import SpimGen.Proofs.LiteralHistory
import SpimGen.Proofs.OutputIndependence
import SpimGen.Proofs.PartIndependence
import SpimGen.Proofs.SessionSeparation
import Mathlib.Data.Nat.Find

namespace SpimGen

/-! ### Room for bytes -/

/-- The sink has room for all the bytes. -/
def Sink.Fits (sink : Sink) (bytes : List UInt8) : Prop :=
  ∀ room, sink.terms.room = some room → bytes.length ≤ room

namespace Sink

variable {sink : Sink}

theorem exists_room_of_not_fits {bytes : List UInt8} (hcut : ¬ sink.Fits bytes) :
    ∃ room, sink.terms.room = some room ∧ room < bytes.length := by
  simpa [Fits] using hcut

/-- Bytes fit one after another if they fit together. -/
theorem fits_accept {first second : List UInt8}
    (hfits : sink.Fits (first ++ second)) :
    (sink.accept first).Fits second := by
  intro room hroom
  obtain ⟨total, htotal, rfl⟩ := Option.map_eq_some_iff.mp hroom
  have hall := hfits total htotal
  rw [List.length_append] at hall
  omega

theorem Fits.left {first second : List UInt8}
    (hfits : sink.Fits (first ++ second)) : sink.Fits first := by
  intro room hroom
  have hall := hfits room hroom
  rw [List.length_append] at hall
  omega

end Sink

theorem Emitter.each_write_of_cut {emitter : Emitter} {room : Nat}
    (hroom : emitter.sink.terms.room = some room)
    {lines : List (Line Register)} (hcut : room < (listing lines).length) :
    ∃ count, Action.each write lines emitter =
      ⟨.error (.sinkRefused emitter.sink.refusal),
        emitter.receive ((listing lines).take room) count, []⟩ := by
  rw [each_write_of_room hroom 0 lines, if_neg (Nat.not_le.mpr hcut)]
  exact ⟨_, rfl⟩

/-! ### What is to be written -/

/-- The text that ends a program. -/
def epilogText (annotate : Bool) : String :=
  (if annotate then "#\texit()ing the program\n" else "") ++
    "\tli $v0, 10\n\tsyscall\n"

theorem listing_epilog (annotate : Bool) :
    listing (Emission.epilog.lines annotate) =
      (epilogText annotate).toUTF8.data.toList := by
  cases annotate <;> decide

namespace Compilation

/-- The bytes that end the program. -/
def epilogBytes (compilation : Compilation) : List UInt8 :=
  (epilogText compilation.emitter.annotate).toUTF8.data.toList

/-- The text recorded for the label with a number. -/
def labelText? (compilation : Compilation) (number : Nat) : Option String :=
  compilation.literals.resolve (StringLabel.ofIndex number).text

/-- Every assigned label has a text. -/
def Resolved (compilation : Compilation) : Prop :=
  ∀ number < compilation.labels.count, compilation.labelText? number ≠ none

/-- The label is the first without a text. -/
def Misses (compilation : Compilation) (number : Nat) : Prop :=
  number < compilation.labels.count ∧ compilation.labelText? number = none ∧
    ∀ earlier < number, compilation.labelText? earlier ≠ none

/-- The bytes of the string table, for a compilation that has all texts. -/
def tableBytes (compilation : Compilation) : List UInt8 :=
  (declarationText (fun number => (compilation.labelText? number).getD "")
    compilation.labels.count).toUTF8.data.toList

/-- Everything that completing the compilation has to write. -/
def finalBytes (compilation : Compilation) : List UInt8 :=
  compilation.epilogBytes ++ compilation.tableBytes

theorem exists_misses_of_not_resolved {compilation : Compilation}
    (hmissing : ¬ compilation.Resolved) :
    ∃ number, compilation.Misses number := by
  have hsome : ∃ number, number < compilation.labels.count ∧
      compilation.labelText? number = none := by
    simpa [Resolved] using hmissing
  classical
  obtain ⟨hlt, hnone⟩ := Nat.find_spec hsome
  refine ⟨Nat.find hsome, hlt, hnone, ?_⟩
  intro earlier hearlier htext
  exact Nat.find_min hsome hearlier ⟨Nat.lt_trans hearlier hlt, htext⟩

/-- The compilation after its sink has received some more bytes. -/
def received (compilation : Compilation) (bytes : List UInt8) (count : Nat) :
    Compilation :=
  { compilation with emitter := compilation.emitter.receive bytes count }

theorem received_received (compilation : Compilation)
    (first second : List UInt8) (count more : Nat) :
    (compilation.received first count).received second more =
      compilation.received (first ++ second) (count + more) := by
  rw [received, received, received, Emitter.receive_receive]

/-- The compilation after its sink was flushed once more. -/
def flushed (compilation : Compilation) : Compilation :=
  let emitter := compilation.emitter
  { compilation with
    emitter := { emitter with
      sink := { emitter.sink with flushes := emitter.sink.flushes + 1 } } }

/-! ### One part after another -/

section

variable {start : Compilation} {room number : Nat}

theorem emit_epilog_of_fits (hfits : start.emitter.sink.Fits start.epilogBytes) :
    ∃ count, emit .epilog start =
      ⟨.ok (), start.received start.epilogBytes count, []⟩ := by
  rw [epilogBytes, ← listing_epilog] at hfits ⊢
  rw [emit, onEmitter, Action.within, Emitter.emit,
    Emitter.each_write_of_fits hfits]
  exact ⟨_, rfl⟩

theorem emit_epilog_of_cut (hroom : start.emitter.sink.terms.room = some room)
    (hcut : room < start.epilogBytes.length) :
    ∃ count, emit .epilog start =
      ⟨.error (.sinkRefused start.emitter.sink.refusal),
        start.received (start.epilogBytes.take room) count, []⟩ := by
  rw [epilogBytes, ← listing_epilog] at hcut ⊢
  obtain ⟨count, hcount⟩ := Emitter.each_write_of_cut hroom hcut
  rw [emit, onEmitter, Action.within, Emitter.emit, hcount]
  exact ⟨count, rfl⟩

theorem declareLiterals_of_misses (hmisses : start.Misses number) :
    declareLiterals start =
      ⟨.error (.unresolvedLabel (.ofIndex number)), start, []⟩ := by
  obtain ⟨hlt, hnone, hearlier⟩ := hmisses
  have hfault := LabelTable.declarations_of_missing hlt hnone hearlier
  rw [declareLiterals, onEmitter, Action.within,
    Emitter.declare_of_error hfault]

/-- The lines of the string table. -/
def tableLines (compilation : Compilation) : List (Line Register) :=
  declarationLines (fun number => (compilation.labelText? number).getD "")
    compilation.labels.count

theorem listing_tableLines (compilation : Compilation) :
    listing compilation.tableLines = compilation.tableBytes :=
  listing_declarationLines _ _

theorem declareLiterals_of_resolved (hresolved : start.Resolved) :
    ∃ log, declareLiterals start =
      ⟨(Action.each Emitter.write start.tableLines start.emitter).result,
        { start with emitter :=
          (Action.each Emitter.write start.tableLines start.emitter).state },
        log⟩ := by
  have htext : ∀ number < start.labels.count,
      start.literals.resolve (StringLabel.ofIndex number).text =
        some ((start.labelText? number).getD "") := by
    intro number hlt
    obtain ⟨text, htext⟩ := Option.ne_none_iff_exists'.mp (hresolved number hlt)
    rw [htext]
    exact htext
  obtain ⟨hresult, hstate⟩ := start.emitter.declare_eq_each_write htext
  refine ⟨(Emitter.declare start.labels start.literals start.emitter).log, ?_⟩
  rw [declareLiterals, onEmitter, Action.within, tableLines, ← hresult,
    ← hstate]

theorem declareLiterals_of_fits (hresolved : start.Resolved)
    (hfits : start.emitter.sink.Fits start.tableBytes) :
    ∃ count log, declareLiterals start =
      ⟨.ok (), start.received start.tableBytes count, log⟩ := by
  rw [← listing_tableLines] at hfits ⊢
  obtain ⟨log, hdeclare⟩ := declareLiterals_of_resolved hresolved
  rw [hdeclare, Emitter.each_write_of_fits hfits]
  exact ⟨_, log, rfl⟩

theorem declareLiterals_of_cut (hresolved : start.Resolved)
    (hroom : start.emitter.sink.terms.room = some room)
    (hcut : room < start.tableBytes.length) :
    ∃ count log, declareLiterals start =
      ⟨.error (.sinkRefused start.emitter.sink.refusal),
        start.received (start.tableBytes.take room) count, log⟩ := by
  rw [← listing_tableLines] at hcut ⊢
  obtain ⟨log, hdeclare⟩ := declareLiterals_of_resolved hresolved
  obtain ⟨count, hcount⟩ := Emitter.each_write_of_cut hroom hcut
  rw [hdeclare, hcount]
  exact ⟨count, log, rfl⟩

theorem flush_eq (start : Compilation) :
    flush start =
      ⟨if start.emitter.sink.terms.flushFails then
          .error (.sinkRefused start.emitter.sink.terms.message)
        else .ok (), start.flushed, []⟩ := by
  rw [flush, onEmitter, Action.within, Emitter.flush, Emitter.onSink,
    Action.within, Sink.flush]
  split <;> rfl

/-! ### All parts -/

theorem conclude_of_epilog_cut
    (hroom : start.emitter.sink.terms.room = some room)
    (hcut : room < start.epilogBytes.length) :
    ∃ count log, conclude start =
      ⟨.error (.sinkRefused start.emitter.sink.refusal),
        start.received (start.epilogBytes.take room) count, log⟩ := by
  obtain ⟨count, hepilog⟩ := emit_epilog_of_cut hroom hcut
  exact ⟨count, [], Action.bind_apply_of_error hepilog⟩

theorem conclude_of_misses
    (hfits : start.emitter.sink.Fits start.epilogBytes)
    (hmisses : start.Misses number) :
    ∃ count log, conclude start =
      ⟨.error (.unresolvedLabel (.ofIndex number)),
        start.received start.epilogBytes count, log⟩ := by
  obtain ⟨count, hepilog⟩ := emit_epilog_of_fits hfits
  have htable : declareLiterals (start.received start.epilogBytes count) =
      ⟨.error (.unresolvedLabel (.ofIndex number)), _, []⟩ :=
    declareLiterals_of_misses hmisses
  rw [conclude, Action.bind_apply_of_ok hepilog,
    Action.bind_apply_of_error htable]
  exact ⟨count, _, rfl⟩

/-- The end of the program takes up room that the table then lacks. -/
theorem conclude_of_table_cut (hresolved : start.Resolved)
    (hfits : start.emitter.sink.Fits start.epilogBytes)
    (hroom : start.emitter.sink.terms.room = some room)
    (hcut : room < start.finalBytes.length) :
    ∃ count log, conclude start =
      ⟨.error (.sinkRefused start.emitter.sink.refusal),
        start.received (start.finalBytes.take room) count, log⟩ := by
  obtain ⟨count, hepilog⟩ := emit_epilog_of_fits hfits
  have hbefore : start.epilogBytes.length ≤ room := hfits room hroom
  have hleft : (start.received start.epilogBytes count).emitter.sink.terms.room =
      some (room - start.epilogBytes.length) := by
    rw [received, Emitter.receive_room, hroom, Option.map_some]
  have hrest : room - start.epilogBytes.length < start.tableBytes.length := by
    rw [finalBytes, List.length_append] at hcut
    omega
  obtain ⟨more, log, htable⟩ :=
    declareLiterals_of_cut
      (show (start.received start.epilogBytes count).Resolved from hresolved)
      hleft hrest
  have hbytes : start.finalBytes.take room = start.epilogBytes ++
      start.tableBytes.take (room - start.epilogBytes.length) := by
    rw [finalBytes, List.take_append, List.take_of_length_le hbefore]
  rw [received_received] at htable
  rw [conclude, Action.bind_apply_of_ok hepilog,
    Action.bind_apply_of_error htable, hbytes]
  exact ⟨count + more, _, rfl⟩

theorem conclude_of_fits (hresolved : start.Resolved)
    (hfits : start.emitter.sink.Fits start.finalBytes) :
    ∃ count log, conclude start =
      ⟨if start.emitter.sink.terms.flushFails then
          .error (.sinkRefused start.emitter.sink.terms.message)
        else .ok (), (start.received start.finalBytes count).flushed, log⟩ := by
  obtain ⟨count, hepilog⟩ := emit_epilog_of_fits hfits.left
  obtain ⟨more, log, htable⟩ :=
    declareLiterals_of_fits
      (show (start.received start.epilogBytes count).Resolved from hresolved)
      (Sink.fits_accept hfits)
  rw [received_received] at htable
  rw [conclude, Action.bind_apply_of_ok hepilog, Action.bind_apply_of_ok htable,
    flush_eq]
  exact ⟨count + more, _, rfl⟩

end

/-! ### How a compilation ends -/

/-- The compilation ends with a result, after its sink has gained some bytes and
was flushed so many times. -/
structure EndsWith (start : Compilation) (outcome : Outcome Compilation Unit)
    (result : Except Fault Unit) (gained : List UInt8) (flushes : Nat) :
    Prop where
  result_eq : outcome.result = result
  written_eq : outcome.state.emitter.sink.written =
    start.emitter.sink.written ++ gained
  flushes_eq : outcome.state.emitter.sink.flushes =
    start.emitter.sink.flushes + flushes
  /-- Only the emitter may be different. -/
  state_eq : ∃ emitter, outcome.state = { start with emitter }

section

variable {start : Compilation} {result : Except Fault Unit}
  {gained : List UInt8}

theorem finish_of_unflushed (verbosity : Verbosity) (hsound : start.Sound)
    (hconclude : ∃ count log,
      conclude start = ⟨result, start.received gained count, log⟩) :
    start.EndsWith (finish verbosity start) result gained 0 := by
  obtain ⟨count, log, hconclude⟩ := hconclude
  obtain ⟨reports, hfinish⟩ := finish_eq_conclude hsound verbosity
  rw [hfinish, hconclude]
  exact ⟨rfl, rfl, rfl, _, rfl⟩

theorem finish_of_fits (verbosity : Verbosity) (hsound : start.Sound)
    (hresolved : start.Resolved)
    (hfits : start.emitter.sink.Fits start.finalBytes) :
    start.EndsWith (finish verbosity start)
      (if start.emitter.sink.terms.flushFails then
        .error (.sinkRefused start.emitter.sink.terms.message)
      else .ok ()) start.finalBytes 1 := by
  obtain ⟨count, log, hconclude⟩ := conclude_of_fits hresolved hfits
  obtain ⟨reports, hfinish⟩ := finish_eq_conclude hsound verbosity
  rw [hfinish, hconclude]
  exact ⟨rfl, rfl, rfl, _, rfl⟩

theorem exists_finish_eq_error (verbosity : Verbosity) (hsound : start.Sound)
    (hlacking : ¬ (start.Resolved ∧
      start.emitter.sink.Fits start.finalBytes)) :
    ∃ fault, (finish verbosity start).result = .error fault := by
  by_cases hfits : start.emitter.sink.Fits start.epilogBytes
  · by_cases hresolved : start.Resolved
    · have hcut : ¬ start.emitter.sink.Fits start.finalBytes :=
        fun hall => hlacking ⟨hresolved, hall⟩
      obtain ⟨room, hroom, hlt⟩ := Sink.exists_room_of_not_fits hcut
      have hend := finish_of_unflushed verbosity hsound
        (conclude_of_table_cut hresolved hfits hroom hlt)
      exact ⟨_, hend.result_eq⟩
    · obtain ⟨number, hmisses⟩ := exists_misses_of_not_resolved hresolved
      have hend := finish_of_unflushed verbosity hsound
        (conclude_of_misses hfits hmisses)
      exact ⟨_, hend.result_eq⟩
  · obtain ⟨room, hroom, hlt⟩ := Sink.exists_room_of_not_fits hfits
    have hend := finish_of_unflushed verbosity hsound
      (conclude_of_epilog_cut hroom hlt)
    exact ⟨_, hend.result_eq⟩

/-- A compilation is completed if its labels have texts, its sink has room, and
flushing works; each of these is needed. -/
theorem finish_eq_ok_iff (verbosity : Verbosity) (hsound : start.Sound) :
    (finish verbosity start).result = .ok () ↔
      start.Resolved ∧ start.emitter.sink.Fits start.finalBytes ∧
        start.emitter.sink.terms.flushFails = false := by
  by_cases hcomplete : start.Resolved ∧
      start.emitter.sink.Fits start.finalBytes
  · obtain ⟨hresolved, hfits⟩ := hcomplete
    rw [(finish_of_fits verbosity hsound hresolved hfits).result_eq]
    cases start.emitter.sink.terms.flushFails <;> simp [hresolved, hfits]
  · obtain ⟨fault, hfault⟩ := exists_finish_eq_error verbosity hsound hcomplete
    rw [hfault]
    constructor
    · intro hok
      cases hok
    · rintro ⟨hresolved, hfits, _⟩
      exact absurd ⟨hresolved, hfits⟩ hcomplete

end

/-- The allocatable registers that are not free. -/
def busyCount (compilation : Compilation) : Nat :=
  Mips.catalog.allocatable.countP
    (fun reg => compilation.pool.isFree reg = .ok false)

/-- What completing a compilation comes to, in all cases. -/
structure Completed (start : Compilation) (outcome : Outcome Compilation Unit) :
    Prop where
  ok_iff : outcome.result = .ok () ↔
    start.Resolved ∧ start.emitter.sink.Fits start.finalBytes ∧
      start.emitter.sink.terms.flushFails = false
  of_ok : outcome.result = .ok () →
    start.EndsWith outcome (.ok ()) start.finalBytes 1
  /-- The end of the program is written before any label is looked up. -/
  of_epilog_cut : ∀ room, start.emitter.sink.terms.room = some room →
    room < start.epilogBytes.length →
      start.EndsWith outcome (.error (.sinkRefused start.emitter.sink.refusal))
        (start.epilogBytes.take room) 0
  /-- Every label is looked up before the table is begun. -/
  of_misses : ∀ number, start.emitter.sink.Fits start.epilogBytes →
    start.Misses number →
      start.EndsWith outcome (.error (.unresolvedLabel (.ofIndex number)))
        start.epilogBytes 0
  of_table_cut : ∀ room, start.emitter.sink.terms.room = some room →
    start.emitter.sink.Fits start.epilogBytes → start.Resolved →
    room < start.finalBytes.length →
      start.EndsWith outcome (.error (.sinkRefused start.emitter.sink.refusal))
        (start.finalBytes.take room) 0
  of_flush_failure : start.Resolved →
    start.emitter.sink.Fits start.finalBytes →
    start.emitter.sink.terms.flushFails = true →
      start.EndsWith outcome
        (.error (.sinkRefused start.emitter.sink.terms.message))
        start.finalBytes 1
  /-- The first report gives the lines written and the registers in use. -/
  log_head : outcome.log.head? =
    some (.finishing start.emitter.lines start.busyCount)

end Compilation

/-- The registers that are not counted as free are those that are not free. -/
theorem Pool.Tracks.capacity_sub_freeCount {catalog : Catalog}
    (hpositional : catalog.Positional) {pool : Pool catalog}
    {held : Finset Register} (htracks : pool.Tracks held) :
    catalog.capacity - pool.freeCount =
      catalog.allocatable.countP (fun reg => pool.isFree reg = .ok false) := by
  have hbusy : catalog.allocatable.countP
      (fun reg => pool.isFree reg = .ok false) =
        catalog.allocatable.countP (fun reg => decide (reg ∈ held)) := by
    apply List.countP_congr
    intro reg hmem
    obtain ⟨hreg, hallocatable⟩ := Catalog.mem_allocatable_iff.mp hmem
    rw [htracks.isFree_eq hpositional hreg]
    simp [hallocatable]
  rw [hbusy, htracks.freeCount_eq, Catalog.capacity,
    List.length_eq_countP_add_countP (fun reg => decide (reg ∈ held))]
  simp

theorem Compilation.completed_finish {start : Compilation}
    {held : Finset Register} (htracks : start.pool.Tracks held)
    (verbosity : Verbosity) : start.Completed (finish verbosity start) := by
  have hsound : start.Sound := htracks.sound
  refine
    { ok_iff := finish_eq_ok_iff verbosity hsound
      of_ok := ?_
      of_epilog_cut := fun _ hroom hcut =>
        finish_of_unflushed verbosity hsound (conclude_of_epilog_cut hroom hcut)
      of_misses := fun _ hfits hmisses =>
        finish_of_unflushed verbosity hsound (conclude_of_misses hfits hmisses)
      of_table_cut := fun _ hroom hfits hresolved hcut =>
        finish_of_unflushed verbosity hsound
          (conclude_of_table_cut hresolved hfits hroom hcut)
      of_flush_failure := ?_
      log_head := ?_ }
  · intro hok
    obtain ⟨hresolved, hfits, hflush⟩ :=
      (finish_eq_ok_iff verbosity hsound).mp hok
    have hend := finish_of_fits verbosity hsound hresolved hfits
    rwa [hflush] at hend
  · intro hresolved hfits hflush
    have hend := finish_of_fits verbosity hsound hresolved hfits
    rwa [hflush] at hend
  · obtain ⟨log, hfinish⟩ := finish_eq_conclude hsound verbosity
    rw [hfinish, List.head?_cons, finishing, busyCount,
      htracks.capacity_sub_freeCount Mips.catalog_positional]

/-! ### Every state of a session -/

/-- The table of every pool of the bench shows which registers are held. -/
def PoolBench.Tracked {catalog : Catalog} (bench : PoolBench catalog) : Prop :=
  ∀ pool ∈ bench.pools, ∃ held, pool.Tracks held

theorem PoolBench.new_tracked {catalog : Catalog} : (new catalog).Tracked :=
  List.forall_mem_cons.mpr ⟨⟨∅, Pool.new_tracks⟩, by simp [new]⟩

theorem PoolBench.Tracked.move {catalog : Catalog}
    (hpositional : catalog.Positional) {bench next : PoolBench catalog}
    (htracked : bench.Tracked) (hmove : bench.Move next) : next.Tracked := by
  apply hmove.forall_pools ?_ htracked
  rintro pool moved ⟨held, htracks⟩ hpool
  exact htracks.exists_of_move hpositional hpool

theorem Workspace.tracked_take {workspace : Workspace}
    (htracked : workspace.bench.Tracked) (verbosity : Verbosity)
    {step : Step RegisterRef} (hopen : step.closes = false) :
    (workspace.take verbosity step).state.bench.Tracked := by
  rw [take]
  split
  · exact htracked
  · rename_i known hknown
    have hclosed : known.closes = false :=
      (Step.closes_of_traverse hknown).trans hopen
    cases known with
    | pool step =>
        exact htracked.move Mips.catalog_positional
          (PoolBench.perform_move verbosity step workspace.bench)
    | _ =>
        rw [bench_perform_of_pool? verbosity hclosed rfl]
        exact htracked

/-- The compilation with other texts for its labels and a sink on other terms. -/
def Compilation.facing (compilation : Compilation) (literals : Literals)
    (terms : SinkTerms) : Compilation :=
  let emitter := compilation.emitter
  { compilation with
    literals
    emitter := { emitter with sink := { emitter.sink with terms } } }

namespace Session

variable {count : Nat}

/-- In every state of a session, whatever texts are recorded and whatever the
sink does, what is lacking first decides how completing a compilation ends and
how much it writes. -/
theorem completion_outcome (verbosity : Verbosity)
    (setups : Fin count → Setup)
    (steps : List (Fin count × Step RegisterRef)) (address : Fin count)
    (workspace : Workspace)
    (hopen : ((opened setups).follow verbosity steps).workspace? address =
      some workspace)
    (literals : Literals) (terms : SinkTerms) :
    let start := workspace.compilation.facing literals terms
    start.Completed (Compilation.finish verbosity start) := by
  intro start
  have htracked : workspace.bench.Tracked := by
    apply forall_workspace?_follow
      (motive := fun workspace => workspace.bench.Tracked)
      (fun _ _ hstep hbench => Workspace.tracked_take hbench verbosity hstep)
      ?_ steps address workspace hopen
    intro place first hfirst
    rw [workspace?_opened] at hfirst
    cases hfirst
    exact PoolBench.new_tracked
  obtain ⟨held, htracks⟩ :=
    htracked workspace.compilation.pool List.mem_cons_self
  have hpool : start.pool.Tracks held := htracks
  exact Compilation.completed_finish hpool verbosity

/-- Steps that leave the second of two labels without a text. -/
def halfLabelled : List (Step RegisterRef) :=
  [.pool (.allocate none), .intern "first", .assignLabel]

/-- A sink with just the room for the end of the program receives all of it
before the label is reported; one byte less, and the sink is reported. -/
theorem completion_outcome_halfLabelled :
    ∃ workspace,
      ((new 1 {} true).follow .trace (alone halfLabelled)).workspace? 0 =
        some workspace ∧
      (let start := workspace.compilation.facing
        workspace.compilation.literals { room := some 45 }
      start.EndsWith (Compilation.finish .trace start)
        (.error (.unresolvedLabel (.ofIndex 1))) start.epilogBytes 0) ∧
      let start := workspace.compilation.facing
        workspace.compilation.literals { room := some 44 }
      start.EndsWith (Compilation.finish .trace start)
        (.error (.sinkRefused "sink closed")) (start.epilogBytes.take 44) 0 := by
  have hopen : ((new 1 {} true).follow .trace (alone halfLabelled)).workspace? 0 =
      some _ := rfl
  have houtcome := completion_outcome .trace _ _ 0 _ hopen
  refine ⟨_, hopen, ?_, ?_⟩
  · apply (houtcome _ { room := some 45 }).of_misses 1
    · rintro _ ⟨⟩
      decide
    · exact ⟨by decide, by decide, by decide⟩
  · exact (houtcome _ { room := some 44 }).of_epilog_cut 44 rfl (by decide)

end Session

end SpimGen
