import SpimGen.Register
import SpimGen.MipsCatalog
import SpimGen.Instruction
import SpimGen.Line
import SpimGen.StringLabel
import SpimGen.TerminalText
import SpimGen.Fault
import SpimGen.Event
import SpimGen.Action
import SpimGen.RegisterPool
import SpimGen.Emission
import SpimGen.Sink
import SpimGen.Emitter
import SpimGen.Literals
import SpimGen.Frame
import SpimGen.Compilation
import SpimGen.PoolBench
import SpimGen.Workspace
import SpimGen.Session
import SpimGen.SampleProgram
import SpimGen.OutputPath
import SpimGen.CommandLine
import SpimGen.Disk
import SpimGen.Program
import SpimGen.Main
import SpimGen.Proofs.PoolRun
import SpimGen.Proofs.Ownership
import SpimGen.Proofs.CounterScan
import SpimGen.Proofs.LineWriting
import SpimGen.Proofs.SinkPrefix
import SpimGen.Proofs.InstructionReader
import SpimGen.Proofs.UniqueDecoding
import SpimGen.Proofs.PoolSafety
import SpimGen.Proofs.LiteralHistory
import SpimGen.Proofs.Execution
import SpimGen.Proofs.AnnotationErasure
import SpimGen.Proofs.ActionRun
import SpimGen.Proofs.SessionSeparation
import SpimGen.Proofs.PartIndependence
import SpimGen.Proofs.LogReplay
import SpimGen.Proofs.ArgumentReading
import SpimGen.Proofs.OutputIndependence
import SpimGen.Proofs.OnePassSearch
import SpimGen.Proofs.Draining
import SpimGen.Proofs.Exchange
import SpimGen.Proofs.Completion
import SpimGen.Proofs.OutputNaming
import SpimGen.Proofs.FrameTiling
