/-
The log of a register pool tells its state.  Whoever reads the debug messages
of a run can replay them: a message that a pool was set up starts over, and
every other change of the pool is reported once, with the register's name and
the number of registers that it leaves free.  The replay ends in the very state
of the pool, so two runs with the same messages end in the same state.
-/
import SpimGen.Proofs.InstructionReader
import SpimGen.Proofs.Ownership
import SpimGen.Proofs.PoolSafety

namespace SpimGen

/-! ### Reading messages -/

/-- What a message says about the pool that logged it. -/
inductive Notice where
  | opened
  | allocated (name : String) (left : Nat)
  | freed (name : String) (left : Nat)
deriving Repr, DecidableEq

/-- What follows a given start of a text. -/
def behind? (start : String) (text : List Char) : Option (List Char) :=
  text.dropPrefix? start.toList

theorem behind?_append (start rest : String) :
    behind? start (start ++ rest).toList = some rest.toList := by
  rw [behind?, String.toList_append]
  exact List.dropPrefix?_append_of_beq _ BEq.rfl

namespace Notice

/-- Reads a register's name and, in brackets, how many registers are free. -/
def readTally (text : List Char) : Option (String × Nat) := do
  let (name, rest) := cutWord (· == ' ') text
  let (digits, _) := cutWord (· == ' ') (← behind? " (" rest)
  return (String.ofList name, ← readDigits digits)

/-- Reads a message; most messages are not about a change of the pool. -/
def read? (message : String) : Option Notice :=
  match behind? "Available registers: " message.toList with
  | some _ => some .opened
  | none =>
      match behind? "Allocated register " message.toList with
      | some rest =>
          (readTally rest).map fun (name, left) => .allocated name left
      | none => do
          let (name, left) ←
            readTally (← behind? "Freed register " message.toList)
          return .freed name left

/-- The number of free registers that the message gives. -/
def left? : Notice → Option Nat
  | .opened => none
  | .allocated _ left => some left
  | .freed _ left => some left

theorem readTally_append {name : String} (hname : ' ' ∉ name.toList)
    (left : Nat) :
    readTally (name ++ (" (" ++ (toString left ++ " free)"))).toList =
      some (name, left) := by
  have hdigits : ' ' ∉ (toString left).toList := by
    intro hblank
    cases isDigit_of_mem_repr hblank
  have hword : cutWord (· == ' ')
      (name ++ (" (" ++ (toString left ++ " free)"))).toList =
        (name.toList, (" (" ++ (toString left ++ " free)")).toList) := by
    rw [String.toList_append, String.toList_append]
    exact cutWord_append (beq_eq_false_of_notMem hname) rfl _
  have hnumber : cutWord (· == ' ') (toString left ++ " free)").toList =
      ((toString left).toList, " free)".toList) := by
    rw [String.toList_append]
    exact cutWord_append (beq_eq_false_of_notMem hdigits) rfl _
  have hread : readDigits (toString left).toList = some left :=
    readDigits_repr left
  rw [readTally, hword]
  simp only [behind?_append, hnumber, hread, Option.bind_eq_bind,
    Option.bind_some, String.ofList_toList]
  rfl

theorem read?_opened (tags : List String) :
    read? (Event.poolOpened tags).message = some .opened := by
  have hstart : "Available registers: [" = "Available registers: " ++ "[" := by
    decide
  have hmessage : (Event.poolOpened tags).message =
      "Available registers: " ++
        ("[" ++ (String.intercalate ", " tags ++ "]")) := by
    change "Available registers: [" ++ String.intercalate ", " tags ++ "]" = _
    rw [hstart, String.append_assoc, String.append_assoc]
  rw [read?, hmessage, behind?_append]

theorem read?_allocated {name : String} (hname : ' ' ∉ name.toList)
    (left : Nat) :
    read? (Event.allocated name left).message =
      some (.allocated name left) := by
  have hmessage : (Event.allocated name left).message =
      "Allocated register " ++
        (name ++ (" (" ++ (toString left ++ " free)"))) := by
    change "Allocated register " ++ name ++ " (" ++ toString left ++
      " free)" = _
    simp only [String.append_assoc]
  have hother : behind? "Available registers: "
      (Event.allocated name left).message.toList = none := by
    rw [hmessage, String.toList_append]
    rfl
  rw [read?, hother, hmessage, behind?_append]
  simp only [readTally_append hname, Option.map_some]

theorem read?_freed {name : String} (hname : ' ' ∉ name.toList) (left : Nat) :
    read? (Event.freed name left).message = some (.freed name left) := by
  have hmessage : (Event.freed name left).message =
      "Freed register " ++
        (name ++ (" (" ++ (toString left ++ " free)"))) := by
    change "Freed register " ++ name ++ " (" ++ toString left ++ " free)" = _
    simp only [String.append_assoc]
  have hothers : behind? "Available registers: "
        (Event.freed name left).message.toList = none ∧
      behind? "Allocated register "
        (Event.freed name left).message.toList = none := by
    rw [hmessage, String.toList_append]
    exact ⟨rfl, rfl⟩
  rw [read?, hothers.1, hothers.2, hmessage, behind?_append]
  simp only [Option.bind_eq_bind, Option.bind_some, readTally_append hname]
  rfl

theorem read?_poolEmpty : read? Event.poolEmpty.message = none := by
  decide

theorem read?_searchFailed (counted : Nat) :
    read? (Event.searchFailed counted).message = none := by
  have hmessage : (Event.searchFailed counted).message =
      "No free register found even though " ++
        (toString counted ++ " are counted as free") := by
    change "No free register found even though " ++ toString counted ++
      " are counted as free" = _
    rw [String.append_assoc]
  rw [read?, hmessage, String.toList_append]
  rfl

end Notice

/-- The messages of a log that are shown to whoever wants debug output only. -/
def debugMessages (log : List Event) : List String :=
  (Verbosity.debug.select log).map Event.message

theorem debugMessages_append (log more : List Event) :
    debugMessages (log ++ more) = debugMessages log ++ debugMessages more := by
  rw [debugMessages, Verbosity.select, List.filter_append, List.map_append]
  rfl

/-! ### Replaying messages -/

/-- What the messages say about the registers: which of them are held, and
which was named last. -/
structure Replay where
  held : Finset Register := ∅
  last : Option Register := none

namespace Replay

def note (replay : Replay) : Notice → Replay
  | .opened => {}
  | .allocated name _ =>
      match Mips.catalog.named? name with
      | some reg => ⟨insert reg replay.held, some reg⟩
      | none => replay
  | .freed name _ =>
      match Mips.catalog.named? name with
      | some reg => ⟨replay.held.erase reg, some reg⟩
      | none => replay

def read (replay : Replay) (message : String) : Replay :=
  match Notice.read? message with
  | some notice => replay.note notice
  | none => replay

/-- How many registers the messages leave free. -/
def freeCount (replay : Replay) : Nat :=
  Mips.catalog.allocatable.countP (fun reg => reg ∉ replay.held)

/-- Position of the register named last; without one, the first. -/
def cursor (replay : Replay) : Nat :=
  match replay.last with
  | some reg => Mips.catalog.allocatable.idxOf reg
  | none => 0

/-- The pool that the messages describe. -/
def pool (replay : Replay) : Pool Mips.catalog where
  busy := Mips.catalog.registers.map (Pool.isBusyWith replay.held)
  freeCount := replay.freeCount
  cursor := replay.cursor

/-- Every message that gives a number of free registers gives the number that
the replay has reached with it. -/
def Tallies : Replay → List String → Prop
  | _, [] => True
  | replay, message :: messages =>
      (∀ left ∈ (Notice.read? message).bind Notice.left?,
        left = (replay.read message).freeCount) ∧
      (replay.read message).Tallies messages

theorem tallies_append (replay : Replay) (messages more : List String) :
    replay.Tallies (messages ++ more) ↔
      replay.Tallies messages ∧ (messages.foldl read replay).Tallies more := by
  induction messages generalizing replay with
  | nil => exact (and_iff_right trivial).symm
  | cons message messages ih =>
      rw [List.cons_append, Tallies, Tallies, ih, and_assoc]
      rfl

end Replay

/-- The registers that messages describe, from the first message on. -/
def replay (messages : List String) : Replay :=
  messages.foldl Replay.read {}

/-! ### What a pool reports -/

/-- Whether the event is about a request that changed nothing. -/
def Event.idle : Event → Bool
  | .poolEmpty | .searchFailed _ | .poolState _ => true
  | _ => false

theorem Replay.foldl_read_of_idle (replay : Replay) {log : List Event}
    (hidle : ∀ event ∈ log, event.idle = true) :
    (debugMessages log).foldl read replay = replay ∧
      replay.Tallies (debugMessages log) := by
  induction log with
  | nil => exact ⟨rfl, trivial⟩
  | cons event log ih =>
      obtain ⟨hevent, hlog⟩ := List.forall_mem_cons.mp hidle
      obtain ⟨hfold, htallies⟩ := ih hlog
      have hsilent : ∀ {message}, Notice.read? message = none →
          (message :: debugMessages log).foldl read replay = replay ∧
            replay.Tallies (message :: debugMessages log) := by
        intro message hnone
        have hread : replay.read message = replay := by
          rw [read, hnone]
        rw [List.foldl_cons, Tallies, hread, hnone]
        exact ⟨hfold, by simp, htallies⟩
      cases event with
      | poolEmpty => exact hsilent Notice.read?_poolEmpty
      | searchFailed counted =>
          exact hsilent (Notice.read?_searchFailed counted)
      | poolState dump => exact ⟨hfold, htallies⟩
      | _ => contradiction

namespace Pool

variable {catalog : Catalog}

/-- A move of the pool together with what is logged about it. -/
inductive Reports (pool : Pool catalog) : Pool catalog → List Event → Prop where
  | stay {log : List Event} (hidle : ∀ event ∈ log, event.idle = true) :
      pool.Reports pool log
  | take {position : Nat} {reg : Register}
      (hposition : catalog.allocatable[position]? = some reg)
      (hidle : pool.busy[reg.index]? = some false) :
      pool.Reports (pool.take position reg)
        [.allocated reg.name (pool.take position reg).freeCount]
  | giveBack {position : Nat} {reg : Register}
      (hposition : catalog.allocatable[position]? = some reg)
      (hbusy : pool.busy[reg.index]? = some true) :
      pool.Reports (pool.giveBack position reg)
        [.freed reg.name (pool.giveBack position reg).freeCount]
  | startOver : pool.Reports (new catalog) [opening catalog]

theorem Reports.silent (pool : Pool catalog) : pool.Reports pool [] :=
  .stay fun _ hevent => absurd hevent List.not_mem_nil

theorem allocate_reports (pool : Pool catalog) :
    pool.Reports (allocate pool).state (allocate pool).log := by
  by_cases hcount : pool.freeCount = 0
  · rw [allocate_of_empty hcount]
    exact .stay (by simp [Event.idle])
  · rcases hfound : pool.search catalog.capacity pool.cursor with
      ⟨position, reg⟩ | _ | fault
    · rw [allocate_of_free hcount hfound]
      obtain ⟨hposition, hidle⟩ := search_eq_free hfound
      exact .take hposition hidle
    · rw [allocate_of_nothing hcount hfound]
      exact .stay (by simp [Event.idle])
    · rw [allocate_of_broken hcount hfound]
      exact .silent pool

theorem free_reports (reg : Register) (pool : Pool catalog) :
    pool.Reports (free reg pool).state (free reg pool).log := by
  by_cases hreg : reg ∈ catalog.allocatable
  · rcases hbusy : pool.busy[reg.index]? with _ | _ | _
    · rw [free_of_outside hreg hbusy]
      exact .silent pool
    · rw [free_of_idle hreg hbusy]
      exact .silent pool
    · obtain ⟨position, hposition⟩ :=
        Option.isSome_iff_exists.mp (List.isSome_idxOf?.mpr hreg)
      rw [free_of_busy hposition hbusy]
      exact .giveBack (getElem?_of_idxOf? hposition) hbusy
  · rw [free_of_notMem hreg]
    exact .silent pool

theorem freeIndex_reports (position : Nat) (pool : Pool catalog) :
    pool.Reports (freeIndex position pool).state
      (freeIndex position pool).log := by
  rcases hreg : catalog.at? position with _ | reg
  · rw [freeIndex_of_none hreg]
    exact .silent pool
  · rw [freeIndex_of_at? hreg]
    exact free_reports reg pool

theorem logState_reports (verbosity : Verbosity) (pool : Pool catalog) :
    pool.Reports (logState verbosity pool).state
      (logState verbosity pool).log := by
  rw [logState]
  split
  · split
    · exact .stay (by simp [Event.idle])
    · exact .silent pool
  · exact .silent pool

end Pool

namespace PoolBench

variable {catalog : Catalog}

/-- What some steps log, one after another. -/
def logged (verbosity : Verbosity) :
    PoolBench catalog → List (PoolStep Register) → List Event
  | _, [] => []
  | bench, step :: steps =>
      (perform verbosity step bench).log
        ++ logged verbosity (perform verbosity step bench).state steps

/-- The log of a pool from its setting up on. -/
def logAfter (catalog : Catalog) (verbosity : Verbosity)
    (steps : List (PoolStep Register)) : List Event :=
  Pool.opening catalog :: (new catalog).logged verbosity steps

theorem allocate_log (verbosity : Verbosity) (keepAs : Option String)
    (bench : PoolBench catalog) :
    (perform verbosity (.allocate keepAs) bench).log =
      (Pool.allocate bench.pool).log := by
  rcases houtcome : Pool.allocate bench.pool with ⟨fault | reg, reached, log⟩
  · have hpool : onPool Pool.allocate bench =
        ⟨.error fault, { bench with pool := reached }, log⟩ := by
      rw [onPool, Action.within, houtcome]
    rw [perform, Action.bind_apply_of_error hpool]
  · have hpool : onPool Pool.allocate bench =
        ⟨.ok reg, { bench with pool := reached }, log⟩ := by
      rw [onPool, Action.within, houtcome]
    rw [perform, Action.bind_apply_of_ok hpool]
    rcases keepAs with _ | name
    · exact List.append_nil log
    · exact List.append_nil log

/-- Every step but going back to a saved pool reports what it does. -/
theorem perform_reports (verbosity : Verbosity) {step : PoolStep Register}
    (hstep : step ≠ .restore) (bench : PoolBench catalog) :
    bench.pool.Reports (perform verbosity step bench).state.pool
      (perform verbosity step bench).log := by
  cases step with
  | allocate keepAs =>
      have hreports := Pool.allocate_reports bench.pool
      rw [allocate_log]
      rcases hresult : (Pool.allocate bench.pool).result with fault | reg
      · rw [(allocate_of_error verbosity hresult keepAs).2]
        rwa [Pool.allocate_state_of_error hresult] at hreports
      · rwa [(allocate_of_ok verbosity hresult keepAs).2.1]
  | free reg =>
      rw [perform, Action.bind_pure_apply]
      exact Pool.free_reports reg bench.pool
  | freeIndex position =>
      rw [perform, Action.bind_pure_apply]
      exact Pool.freeIndex_reports position bench.pool
  | logState =>
      rw [perform, Action.bind_pure_apply]
      exact Pool.logState_reports verbosity bench.pool
  | reset =>
      rw [perform, Action.bind_pure_apply]
      exact .startOver
  | restore => contradiction
  | isFree | dump | save | incomplete => exact .silent bench.pool

end PoolBench

/-! ### The replay keeps up with the pool -/

/-- A register of the MIPS catalog is found by its name, which has no blank. -/
theorem Mips.named?_name {reg : Register} (hreg : reg ∈ Mips.catalog.registers) :
    Mips.catalog.named? reg.name = some reg ∧ ' ' ∉ reg.name.toList := by
  have hfound := readRegister_operand hreg
  rw [readRegister, String.ofList_toList] at hfound
  exact ⟨hfound, notMem_register_name hreg rfl⟩

theorem Catalog.Positional.idxOf_eq {catalog : Catalog}
    (hpositional : catalog.Positional) {position : Nat} {reg : Register}
    (hposition : catalog.allocatable[position]? = some reg) :
    catalog.allocatable.idxOf reg = position := by
  obtain ⟨hlt, rfl⟩ := List.getElem?_eq_some_iff.mp hposition
  exact (hpositional.registers_nodup.filter _).idxOf_getElem position hlt

namespace Pool

/-- The pool is as the messages describe it. -/
structure Matches (pool : Pool Mips.catalog) (replay : Replay) : Prop where
  tracks : pool.Tracks replay.held
  cursor_eq : pool.cursor = replay.cursor

variable {pool next : Pool Mips.catalog} {replay : Replay}

theorem new_matches : (new Mips.catalog).Matches {} where
  tracks := new_tracks
  cursor_eq := rfl

theorem Matches.pool_eq (hmatches : pool.Matches replay) :
    replay.pool = pool := by
  rcases pool with ⟨busy, freeCount, cursor⟩
  rw [Replay.pool, ← hmatches.tracks.busy_eq, Replay.freeCount,
    ← hmatches.tracks.freeCount_eq, ← hmatches.cursor_eq]

theorem Matches.take (hmatches : pool.Matches replay) {position : Nat}
    {reg : Register}
    (hposition : Mips.catalog.allocatable[position]? = some reg)
    (hidle : pool.busy[reg.index]? = some false) :
    (pool.take position reg).Matches ⟨insert reg replay.held, some reg⟩ where
  tracks := hmatches.tracks.take Mips.catalog_positional hposition hidle
  cursor_eq := (Mips.catalog_positional.idxOf_eq hposition).symm

theorem Matches.giveBack (hmatches : pool.Matches replay) {position : Nat}
    {reg : Register}
    (hposition : Mips.catalog.allocatable[position]? = some reg)
    (hbusy : pool.busy[reg.index]? = some true) :
    (pool.giveBack position reg).Matches
      ⟨replay.held.erase reg, some reg⟩ where
  tracks := hmatches.tracks.giveBack Mips.catalog_positional hposition hbusy
  cursor_eq := (Mips.catalog_positional.idxOf_eq hposition).symm

theorem Matches.freeCount_eq (hmatches : pool.Matches replay) :
    pool.freeCount = replay.freeCount :=
  hmatches.tracks.freeCount_eq

theorem Matches.of_message {event : Event} (hdebug : event.level = .debug)
    {notice : Notice} (hnotice : Notice.read? event.message = some notice)
    (hleft : ∀ left ∈ notice.left?, left = next.freeCount)
    (hnext : next.Matches (replay.note notice)) :
    next.Matches ((debugMessages [event]).foldl Replay.read replay) ∧
      replay.Tallies (debugMessages [event]) := by
  have hmessages : debugMessages [event] = [event.message] := by
    simp [debugMessages, Verbosity.select, hdebug, Verbosity.shows]
  have hread : replay.read event.message = replay.note notice := by
    rw [Replay.read, hnotice]
  rw [hmessages, List.foldl_cons, Replay.Tallies, hread, hnotice]
  refine ⟨hnext, ?_, trivial⟩
  intro left hmem
  rw [hleft left hmem, hnext.freeCount_eq]

/-- Reading what is logged about a move keeps the replay in step with the
pool, and the number of free registers in the message is right. -/
theorem Matches.reports (hmatches : pool.Matches replay) {log : List Event}
    (hreports : pool.Reports next log) :
    next.Matches ((debugMessages log).foldl Replay.read replay) ∧
      replay.Tallies (debugMessages log) := by
  rcases hreports with hidle | ⟨hposition, hidle⟩ | ⟨hposition, hbusy⟩ | _
  · obtain ⟨hfold, htallies⟩ := replay.foldl_read_of_idle hidle
    rw [hfold]
    exact ⟨hmatches, htallies⟩
  · obtain ⟨hnamed, hblank⟩ := Mips.named?_name
      (Catalog.mem_allocatable_iff.mp (List.mem_of_getElem? hposition)).1
    apply Matches.of_message rfl (Notice.read?_allocated hblank _)
    · simp [Notice.left?]
    · rw [Replay.note, hnamed]
      exact hmatches.take hposition hidle
  · obtain ⟨hnamed, hblank⟩ := Mips.named?_name
      (Catalog.mem_allocatable_iff.mp (List.mem_of_getElem? hposition)).1
    apply Matches.of_message rfl (Notice.read?_freed hblank _)
    · simp [Notice.left?]
    · rw [Replay.note, hnamed]
      exact hmatches.giveBack hposition hbusy
  · apply Matches.of_message rfl (Notice.read?_opened _)
    · simp [Notice.left?]
    · exact new_matches

end Pool

namespace PoolBench

theorem follow_matches (verbosity : Verbosity)
    {bench : PoolBench Mips.catalog} {replay : Replay}
    (hmatches : bench.pool.Matches replay) {steps : List (PoolStep Register)}
    (hsteps : ∀ step ∈ steps, step ≠ .restore) :
    (bench.follow verbosity steps).pool.Matches
        ((debugMessages (bench.logged verbosity steps)).foldl
          Replay.read replay) ∧
      replay.Tallies (debugMessages (bench.logged verbosity steps)) := by
  induction steps generalizing bench replay with
  | nil => exact ⟨hmatches, trivial⟩
  | cons step steps ih =>
      obtain ⟨hstep, hrest⟩ := List.forall_mem_cons.mp hsteps
      obtain ⟨hnext, htally⟩ :=
        hmatches.reports (perform_reports verbosity hstep bench)
      obtain ⟨hlast, htallies⟩ := ih hnext hrest
      rw [logged, debugMessages_append, List.foldl_append,
        Replay.tallies_append]
      exact ⟨hlast, htally, htallies⟩

theorem after_matches (verbosity : Verbosity)
    {steps : List (PoolStep Register)}
    (hsteps : ∀ step ∈ steps, step ≠ .restore) :
    (after Mips.catalog verbosity steps).pool.Matches
        (replay (debugMessages (logAfter Mips.catalog verbosity steps))) ∧
      Replay.Tallies {}
        (debugMessages (logAfter Mips.catalog verbosity steps)) := by
  obtain ⟨hopened, htally⟩ := Pool.new_matches.reports .startOver
  have hnew : (new Mips.catalog).pool.Matches
      ((debugMessages [Pool.opening Mips.catalog]).foldl Replay.read {}) :=
    hopened
  obtain ⟨hlast, htallies⟩ := follow_matches verbosity hnew hsteps
  have hmessages : debugMessages (logAfter Mips.catalog verbosity steps) =
      debugMessages [Pool.opening Mips.catalog] ++
        debugMessages ((new Mips.catalog).logged verbosity steps) :=
    debugMessages_append [Pool.opening Mips.catalog] _
  rw [hmessages, replay, List.foldl_append, Replay.tallies_append]
  exact ⟨hlast, htally, htallies⟩

/-- The debug messages of a run replay to the pool at its end, the numbers in
them are those of the replay, and runs with the same messages end alike. -/
theorem after_eq_replay (verbosity : Verbosity)
    (steps : List (PoolStep Register))
    (hsteps : ∀ step ∈ steps, step ≠ .restore) :
    let messages := debugMessages (logAfter Mips.catalog verbosity steps)
    (replay messages).pool = (after Mips.catalog verbosity steps).pool ∧
    Replay.Tallies {} messages ∧
    ∀ (otherVerbosity : Verbosity) (others : List (PoolStep Register)),
      (∀ step ∈ others, step ≠ .restore) →
      debugMessages (logAfter Mips.catalog otherVerbosity others) = messages →
        (after Mips.catalog otherVerbosity others).pool =
          (after Mips.catalog verbosity steps).pool := by
  intro messages
  obtain ⟨hmatches, htallies⟩ := after_matches verbosity hsteps
  refine ⟨hmatches.pool_eq, htallies, ?_⟩
  intro otherVerbosity others hothers hsame
  obtain ⟨hother, _⟩ := after_matches otherVerbosity hothers
  calc (after Mips.catalog otherVerbosity others).pool
      = (replay messages).pool := by rw [← hother.pool_eq, hsame]
    _ = (after Mips.catalog verbosity steps).pool := hmatches.pool_eq

/-- Steps of which some are refused and some only look. -/
def clumsy : List (PoolStep Register) :=
  [.allocate none, .reset, .allocate (some "a"), .allocate none,
   .free (Mips.register "t0" 8), .free (Mips.register "t0" 8), .freeIndex 29,
   .isFree Mips.gp, .logState, .dump]

/-- The steps among them that do something. -/
def brisk : List (PoolStep Register) :=
  [.allocate none, .reset, .allocate none, .allocate none, .freeIndex 8]

theorem after_eq_replay_clumsy :
    (∀ step ∈ clumsy, step ≠ .restore) ∧ (∀ step ∈ brisk, step ≠ .restore) ∧
    debugMessages (logAfter Mips.catalog .quiet brisk) =
      debugMessages (logAfter Mips.catalog .trace clumsy) ∧
    (after Mips.catalog .quiet brisk).pool =
      (after Mips.catalog .trace clumsy).pool := by
  have hclumsy : ∀ step ∈ clumsy, step ≠ .restore := by decide
  have hbrisk : ∀ step ∈ brisk, step ≠ .restore := by decide
  have hsame : debugMessages (logAfter Mips.catalog .quiet brisk) =
      debugMessages (logAfter Mips.catalog .trace clumsy) := by
    apply congrArg (List.map Event.message)
    rfl
  obtain ⟨_, _, hpools⟩ := after_eq_replay .trace clumsy hclumsy
  exact ⟨hclumsy, hbrisk, hsame, hpools .quiet brisk hbrisk hsame⟩

end PoolBench

end SpimGen
