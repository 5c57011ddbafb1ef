/-
What generated programs do.  A machine executes the lines of a listing one after
another; an instruction changes one register or the memory, and a service call
prints, reads or ends the run.  The lines of a request, executed on any machine,
do what the request promises as a single step, and beyond the registers that it
names they change `$a0` and `$v0` only.
-/
import SpimGen.Proofs.SinkPrefix
import Mathlib.Logic.Function.Basic

namespace SpimGen

/-! ### The machine -/

/-- What a machine makes of operations, labels and its memory. -/
structure Platform (μ : Type) where
  compute : ArithOp → Int32 → Int32 → Int32
  address : String → Int32
  load : μ → Int32 → Int32
  store : μ → Int32 → Int32 → μ
  /-- The string that begins at an address. -/
  stringAt : μ → Int32 → String

inductive Status where
  | running
  | halted
  /-- An integer is asked for and none is left. -/
  | starved
deriving Repr, DecidableEq

structure Machine (μ : Type) where
  /-- Register contents by hardware number. -/
  registers : Nat → Int32
  memory : μ
  input : List Int32
  output : String
  status : Status

/-- The service that a number calls for. -/
def Service.ofNumber? (number : Int32) : Option Service :=
  if number = 1 then some .printInt
  else if number = 4 then some .printString
  else if number = 5 then some .readInt
  else if number = 10 then some .exit
  else none

namespace Machine

variable {μ : Type}

/-- Register zero reads as zero, whatever was written to it. -/
def read (machine : Machine μ) (reg : Register) : Int32 :=
  if reg.index = 0 then 0 else machine.registers reg.index

def write (machine : Machine μ) (reg : Register) (value : Int32) : Machine μ :=
  if reg.index = 0 then machine
  else
    { machine with
      registers := Function.update machine.registers reg.index value }

def print (machine : Machine μ) (text : String) : Machine μ :=
  { machine with output := machine.output ++ text }

def setInput (machine : Machine μ) (input : List Int32) : Machine μ :=
  { machine with input }

def stop (machine : Machine μ) (status : Status) : Machine μ :=
  { machine with status }

/-- Performs a service with the argument in `$a0`. -/
def serve (platform : Platform μ) (machine : Machine μ) : Service → Machine μ
  | .printInt => machine.print (decimal (machine.read Mips.a0))
  | .printString =>
      machine.print (platform.stringAt machine.memory (machine.read Mips.a0))
  | .readInt =>
      match machine.input with
      | [] => machine.stop .starved
      | value :: rest => (machine.setInput rest).write Mips.v0 value
  | .exit => machine.stop .halted

/-- Executes one instruction; a number that calls for no service is ignored. -/
def execute (platform : Platform μ) (machine : Machine μ) :
    Instruction Register → Machine μ
  | .arith op dest lhs rhs =>
      machine.write dest
        (platform.compute op (machine.read lhs) (machine.read rhs))
  | .arithImm op dest src value =>
      machine.write dest (platform.compute op (machine.read src) value)
  | .load dest base offset =>
      machine.write dest
        (platform.load machine.memory (machine.read base + offset))
  | .store src base offset =>
      { machine with
        memory := platform.store machine.memory (machine.read base + offset)
          (machine.read src) }
  | .loadImm dest value => machine.write dest value
  | .loadAddr dest label => machine.write dest (platform.address label)
  | .move dest src => machine.write dest (machine.read src)
  | .syscall =>
      match Service.ofNumber? (machine.read Mips.v0) with
      | some service => machine.serve platform service
      | none => machine
  | .nop => machine

/-- Executes the instruction of a line, if it has one and the run goes on. -/
def step (platform : Platform μ) (machine : Machine μ)
    (line : Line Register) : Machine μ :=
  match machine.status, line.instruction? with
  | .running, some instr => machine.execute platform instr
  | _, _ => machine

def run (platform : Platform μ) (machine : Machine μ)
    (lines : List (Line Register)) : Machine μ :=
  lines.foldl (step platform) machine

end Machine

/-! ### The promises of requests -/

/-- Whether the request asks for something to happen when the program runs. -/
def Emission.isOperation {ρ : Type} : Emission ρ → Bool
  | .arith _ _ _ _ | .arithImm _ _ _ _ | .load _ _ _ | .store _ _ _
  | .loadImm _ _ | .loadAddr _ _ | .readInt _ | .printInt _
  | .printRegister _ | .printString _ | .printNewline | .epilog => true
  | .prolog | .dataSection | .string _ _ | .call _ | .raw _ => false

/-- The registers that an operation may change. -/
def Emission.clobbers : Emission Register → List Register
  | .arith _ dest _ _ | .arithImm _ dest _ _ | .load dest _ _
  | .loadImm dest _ | .loadAddr dest _ => [dest]
  | .readInt dest => [Mips.v0, dest]
  | .printInt _ | .printRegister _ | .printString _ | .printNewline =>
      [Mips.a0, Mips.v0]
  | .epilog => [Mips.v0]
  | .store _ _ _ | .prolog | .dataSection | .string _ _ | .call _
  | .raw _ => []

namespace Machine

variable {μ : Type}

/-- What an operation promises, as a single step. -/
def fulfil (platform : Platform μ) (machine : Machine μ) :
    Emission Register → Machine μ
  | .arith op dest lhs rhs =>
      machine.write dest
        (platform.compute op (machine.read lhs) (machine.read rhs))
  | .arithImm op dest src value =>
      machine.write dest (platform.compute op (machine.read src) value)
  | .load dest base offset =>
      machine.write dest
        (platform.load machine.memory (machine.read base + offset))
  | .store src base offset =>
      { machine with
        memory := platform.store machine.memory (machine.read base + offset)
          (machine.read src) }
  | .loadImm dest value => machine.write dest value
  | .loadAddr dest label => machine.write dest (platform.address label)
  | .readInt dest =>
      match machine.input with
      | [] => (machine.write Mips.v0 5).stop .starved
      | value :: rest =>
          ((machine.setInput rest).write Mips.v0 value).write dest value
  | .printInt value =>
      ((machine.print (decimal value)).write Mips.a0 value).write Mips.v0 1
  | .printRegister reg =>
      ((machine.print (decimal (machine.read reg))).write Mips.a0
        (machine.read reg)).write Mips.v0 1
  | .printString reg =>
      ((machine.print (platform.stringAt machine.memory
        (machine.read reg))).write Mips.a0 (machine.read reg)).write Mips.v0 4
  | .printNewline =>
      ((machine.print (platform.stringAt machine.memory
        (platform.address ".newline"))).write Mips.a0
          (platform.address ".newline")).write Mips.v0 4
  | .epilog => (machine.write Mips.v0 10).stop .halted
  | .prolog | .dataSection | .string _ _ | .call _ | .raw _ => machine

/-- Takes an operation as a single step, if the run goes on. -/
def obey (platform : Platform μ) (machine : Machine μ)
    (request : Emission Register) : Machine μ :=
  match machine.status with
  | .running => machine.fulfil platform request
  | _ => machine

/-! ### Registers -/

theorem write_eq {reg : Register} (hreg : reg.index ≠ 0) (machine : Machine μ)
    (value : Int32) :
    machine.write reg value =
      { machine with
        registers := Function.update machine.registers reg.index value } :=
  if_neg hreg

@[simp]
theorem write_status (machine : Machine μ) (reg : Register) (value : Int32) :
    (machine.write reg value).status = machine.status := by
  rw [write]
  split <;> rfl

@[simp]
theorem write_memory (machine : Machine μ) (reg : Register) (value : Int32) :
    (machine.write reg value).memory = machine.memory := by
  rw [write]
  split <;> rfl

@[simp]
theorem write_input (machine : Machine μ) (reg : Register) (value : Int32) :
    (machine.write reg value).input = machine.input := by
  rw [write]
  split <;> rfl

theorem read_write_self {reg : Register} (hreg : reg.index ≠ 0)
    (machine : Machine μ) (value : Int32) :
    (machine.write reg value).read reg = value := by
  simp [write_eq hreg, read, hreg]

theorem read_write_of_ne {reg other : Register}
    (hne : other.index ≠ reg.index) (machine : Machine μ) (value : Int32) :
    (machine.write reg value).read other = machine.read other := by
  by_cases hreg : reg.index = 0
  · rw [write, if_pos hreg]
  · simp [write_eq hreg, read, Function.update_of_ne hne]

theorem write_write_self (machine : Machine μ) (reg : Register)
    (first second : Int32) :
    (machine.write reg first).write reg second = machine.write reg second := by
  by_cases hreg : reg.index = 0
  · simp [write, hreg]
  · simp [write_eq hreg]

theorem write_print (machine : Machine μ) (reg : Register) (value : Int32)
    (text : String) :
    (machine.write reg value).print text =
      (machine.print text).write reg value := by
  by_cases hreg : reg.index = 0
  · simp [write, hreg]
  · simp [write_eq hreg, print]

theorem write_setInput (machine : Machine μ) (reg : Register) (value : Int32)
    (input : List Int32) :
    (machine.write reg value).setInput input =
      (machine.setInput input).write reg value := by
  by_cases hreg : reg.index = 0
  · simp [write, hreg]
  · simp [write_eq hreg, setInput]

/-! ### Lines and requests -/

variable (platform : Platform μ)

theorem step_of_stopped {machine : Machine μ}
    (hstopped : machine.status ≠ .running) (line : Line Register) :
    machine.step platform line = machine := by
  rw [step]
  split
  · contradiction
  · rfl

theorem step_of_instruction {machine : Machine μ}
    (hrunning : machine.status = .running) (instr : Instruction Register) :
    machine.step platform (.instruction instr) =
      machine.execute platform instr := by
  rw [step, hrunning]
  rfl

theorem run_cons (machine : Machine μ) (line : Line Register)
    (lines : List (Line Register)) :
    machine.run platform (line :: lines) =
      (machine.step platform line).run platform lines :=
  rfl

theorem run_append (machine : Machine μ) (first second : List (Line Register)) :
    machine.run platform (first ++ second) =
      (machine.run platform first).run platform second :=
  List.foldl_append

theorem run_of_stopped {machine : Machine μ}
    (hstopped : machine.status ≠ .running) (lines : List (Line Register)) :
    machine.run platform lines = machine := by
  induction lines with
  | nil => rfl
  | cons line lines ih =>
      rw [run_cons, step_of_stopped platform hstopped, ih]

/-- Annotations do nothing. -/
theorem run_lines (machine : Machine μ) (annotate : Bool)
    (request : Emission Register) :
    machine.run platform (request.lines annotate) =
      machine.run platform request.body := by
  have hcomment : machine.run platform request.annotation.toList = machine := by
    cases request <;> cases hstatus : machine.status <;>
      simp [run, step, Emission.annotation, Line.instruction?, hstatus]
  cases annotate with
  | false => rfl
  | true => rw [Emission.lines_true, run_append, hcomment]

theorem ofNumber?_code (service : Service) :
    Service.ofNumber? service.code = some service := by
  cases service <;> decide

/-- A service call leaves the number of the service in `$v0`. -/
theorem run_callLines {machine : Machine μ}
    (hrunning : machine.status = .running) (service : Service) :
    machine.run platform (Emission.callLines service) =
      (machine.write Mips.v0 service.code).serve platform service := by
  have hnumber : (machine.write Mips.v0 service.code).read Mips.v0 =
      service.code := read_write_self (by decide) machine service.code
  have hstatus : (machine.write Mips.v0 service.code).status = .running := by
    rw [write_status, hrunning]
  rw [Emission.callLines, run_cons, step_of_instruction platform hrunning,
    execute, run_cons, step_of_instruction platform hstatus, execute, hnumber,
    ofNumber?_code]
  rfl

/-- Printing takes its argument from `$a0`, which calling the service does not
touch. -/
theorem run_print {machine : Machine μ} (hrunning : machine.status = .running)
    {instr : Instruction Register} {argument : Int32}
    (hinstr : machine.execute platform instr =
      machine.write Mips.a0 argument)
    {service : Service} {text : String}
    (hserve : ∀ prepared : Machine μ, prepared.memory = machine.memory →
      prepared.read Mips.a0 = argument →
        prepared.serve platform service = prepared.print text) :
    machine.run platform
        (.instruction instr :: Emission.callLines service) =
      ((machine.print text).write Mips.a0 argument).write Mips.v0
        service.code := by
  have hstatus : (machine.write Mips.a0 argument).status = .running := by
    rw [write_status, hrunning]
  have hargument : ((machine.write Mips.a0 argument).write Mips.v0
      service.code).read Mips.a0 = argument := by
    rw [read_write_of_ne (by decide), read_write_self (by decide)]
  rw [run_cons, step_of_instruction platform hrunning, hinstr,
    run_callLines platform hstatus, hserve _ (by simp) hargument, write_print,
    write_print]

theorem run_readInt {machine : Machine μ} (hrunning : machine.status = .running)
    (dest : Register) :
    machine.run platform (Emission.readInt dest).body =
      machine.fulfil platform (.readInt dest) := by
  rw [Emission.body, run_append, run_callLines platform hrunning]
  cases hinput : machine.input with
  | nil =>
      -- The run ends before the move, so the destination is not written.
      have hserve : (machine.write Mips.v0 Service.readInt.code).serve platform
          .readInt = (machine.write Mips.v0 5).stop .starved := by
        rw [serve, write_input, hinput]
        rfl
      rw [hserve, run_of_stopped platform (by simp [stop]), fulfil, hinput]
  | cons value rest =>
      have hserve : (machine.write Mips.v0 Service.readInt.code).serve platform
          .readInt = (machine.setInput rest).write Mips.v0 value := by
        rw [serve, write_input, hinput]
        simp only [write_setInput, write_write_self]
      have hstatus : ((machine.setInput rest).write Mips.v0 value).status =
          .running := by
        rw [write_status, setInput, hrunning]
      rw [hserve, run_cons, step_of_instruction platform hstatus, execute,
        read_write_self (by decide), fulfil, hinput]
      rfl

theorem run_body {machine : Machine μ} (hrunning : machine.status = .running)
    {request : Emission Register} (hrequest : request.isOperation = true) :
    machine.run platform request.body = machine.fulfil platform request := by
  have hinteger : ∀ (argument : Int32) (prepared : Machine μ),
      prepared.memory = machine.memory → prepared.read Mips.a0 = argument →
        prepared.serve platform .printInt =
          prepared.print (decimal argument) := by
    intro argument prepared _ hargument
    rw [serve, hargument]
  have hstring : ∀ (argument : Int32) (prepared : Machine μ),
      prepared.memory = machine.memory → prepared.read Mips.a0 = argument →
        prepared.serve platform .printString =
          prepared.print (platform.stringAt machine.memory argument) := by
    intro argument prepared hmemory hargument
    rw [serve, hmemory, hargument]
  cases request with
  | arith | arithImm | load | store | loadImm | loadAddr =>
      exact step_of_instruction platform hrunning _
  | readInt dest => exact run_readInt platform hrunning dest
  | printInt value => exact run_print platform hrunning rfl (hinteger value)
  | printRegister reg => exact run_print platform hrunning rfl (hinteger _)
  | printString reg => exact run_print platform hrunning rfl (hstring _)
  | printNewline => exact run_print platform hrunning rfl (hstring _)
  | epilog => exact run_callLines platform hrunning .exit
  | prolog | dataSection | string | call | raw => cases hrequest

theorem run_lines_eq_obey (machine : Machine μ) (annotate : Bool)
    {request : Emission Register} (hrequest : request.isOperation = true) :
    machine.run platform (request.lines annotate) =
      machine.obey platform request := by
  rw [run_lines, obey]
  cases hstatus : machine.status with
  | running => exact run_body platform hstatus hrequest
  | halted => exact run_of_stopped platform (by simp [hstatus]) _
  | starved => exact run_of_stopped platform (by simp [hstatus]) _

theorem run_flatMap_lines (machine : Machine μ) (annotate : Bool)
    {requests : List (Emission Register)}
    (hrequests : ∀ request ∈ requests, request.isOperation = true) :
    machine.run platform (requests.flatMap (Emission.lines annotate)) =
      requests.foldl (obey platform) machine := by
  induction requests generalizing machine with
  | nil => rfl
  | cons request requests ih =>
      obtain ⟨hrequest, hrest⟩ := List.forall_mem_cons.mp hrequests
      rw [List.flatMap_cons, run_append,
        run_lines_eq_obey platform machine annotate hrequest, ih _ hrest,
        List.foldl_cons]

/-- An operation leaves every register alone that it does not claim. -/
theorem read_obey (machine : Machine μ) {request : Emission Register}
    {reg : Register}
    (hreg : ∀ changed ∈ request.clobbers, reg.index ≠ changed.index) :
    (machine.obey platform request).read reg = machine.read reg := by
  rw [obey]
  cases machine.status with
  | halted => rfl
  | starved => rfl
  | running =>
      cases request with
      | arith | arithImm | load | loadImm | loadAddr =>
          exact read_write_of_ne (hreg _ List.mem_cons_self) _ _
      | readInt dest =>
          simp only [Emission.clobbers, List.forall_mem_cons] at hreg
          obtain ⟨hv0, hdest, -⟩ := hreg
          rw [fulfil]
          cases machine.input with
          | nil => exact read_write_of_ne hv0 machine 5
          | cons value rest =>
              simp only [read_write_of_ne hdest, read_write_of_ne hv0]
              rfl
      | printInt | printRegister | printString | printNewline =>
          simp only [Emission.clobbers, List.forall_mem_cons] at hreg
          obtain ⟨ha0, hv0, -⟩ := hreg
          rw [fulfil, read_write_of_ne hv0, read_write_of_ne ha0]
          rfl
      | epilog => exact read_write_of_ne (hreg _ List.mem_cons_self) _ _
      | store | prolog | dataSection | string | call | raw => rfl

theorem read_foldl_obey (machine : Machine μ)
    {requests : List (Emission Register)} {reg : Register}
    (hreg : ∀ request ∈ requests, ∀ changed ∈ request.clobbers,
      reg.index ≠ changed.index) :
    (requests.foldl (obey platform) machine).read reg = machine.read reg := by
  induction requests generalizing machine with
  | nil => rfl
  | cons request requests ih =>
      obtain ⟨hrequest, hrest⟩ := List.forall_mem_cons.mp hreg
      rw [List.foldl_cons, ih _ hrest, read_obey platform machine hrequest]

/-- Whatever operations are emitted, annotated or not, executing the lines has
the effect of the operations taken one by one; a register that none of them
claims keeps its value. -/
theorem run_emitted_eq_foldl_obey (machine : Machine μ) (annotate : Bool)
    (requests : List (Emission Register))
    (hrequests : ∀ request ∈ requests, request.isOperation = true) :
    let emitted :=
      Action.each Emitter.emit requests (Emitter.opened {} annotate)
    let lines := requests.flatMap (Emission.lines annotate)
    emitted.result = .ok () ∧
    emitted.state.sink.written = listing lines ∧
    machine.run platform lines = requests.foldl (obey platform) machine ∧
    ∀ reg : Register,
      (∀ request ∈ requests, ∀ changed ∈ request.clobbers,
        reg.index ≠ changed.index) →
      (machine.run platform lines).read reg = machine.read reg := by
  intro emitted lines
  have hemitted : emitted = ⟨.ok (),
      (Emitter.opened {} annotate).receive (listing lines) lines.length, []⟩ := by
    rw [show emitted = _ from Emitter.each_emit_eq _ requests]
    exact Emitter.each_write_of_fits (fun room hroom => by cases hroom)
  have hrun : machine.run platform lines =
      requests.foldl (obey platform) machine :=
    run_flatMap_lines platform machine annotate hrequests
  refine ⟨?_, ?_, hrun, ?_⟩
  · rw [hemitted]
  · rw [hemitted, Emitter.opened_receive_written]
  · intro reg hreg
    rw [hrun, read_foldl_obey platform machine hreg]

end Machine

/-- A platform with one string, at the start of the data area. -/
def Platform.words : Platform (Int32 → Int32) where
  compute
    | .add => (· + ·)
    | .sub => (· - ·)
    | .mul => (· * ·)
    | .div => (· / ·)
    | .xor => (· ^^^ ·)
    | .or => (· ||| ·)
    | .and => (· &&& ·)
  address label := if label = Mips.newlineLabel then 0x10010000 else 0
  load memory address := memory address
  store := Function.update
  stringAt _ address := if address = 0x10010000 then "\n" else ""

/-- Operations on the very registers that service calls use, and on register
zero; nothing happens behind the exit. -/
def Emission.entangled : List (Emission Register) :=
  [.readInt Mips.a0, .printRegister Mips.v0, .loadImm Mips.zero 7,
   .arith .add Mips.v0 Mips.a0 Mips.zero, .printRegister Mips.v0,
   .store Mips.v0 Mips.a0 (-1), .readInt Mips.zero, .printNewline, .epilog,
   .printInt 3]

theorem Machine.run_entangled :
    let machine : Machine (Int32 → Int32) :=
      ⟨fun _ => 0, fun _ => 0, [20, 22, 24], "", .running⟩
    let final := machine.run .words
      (Emission.entangled.flatMap (Emission.lines true))
    (∀ request ∈ Emission.entangled, request.isOperation = true) ∧
    final.output = "2020\n" ∧ final.input = [24] ∧ final.memory 19 = 1 ∧
    final.status = .halted := by
  intro machine final
  have hoperations : ∀ request ∈ Emission.entangled,
      request.isOperation = true := by decide
  have hfinal : final = Emission.entangled.foldl (obey .words) machine :=
    (run_emitted_eq_foldl_obey .words machine true Emission.entangled
      hoperations).2.2.1
  rw [hfinal]
  exact ⟨hoperations, by decide⟩

end SpimGen
