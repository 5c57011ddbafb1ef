/-
Byte sinks.  A sink takes bytes up to its room and refuses the first byte
after that; what it took before stays.
-/
import SpimGen.Action

namespace SpimGen

/-- What a sink accepts, and what it says when it refuses. -/
structure SinkTerms where
  /-- How many more bytes are accepted; no number stands for all. -/
  room : Option Nat := none
  /-- Whether a full sink stalls instead of answering with its own message. -/
  stalls : Bool := false
  message : String := "sink closed"
  flushFails : Bool := false
deriving Repr, DecidableEq

structure Sink where
  terms : SinkTerms := {}
  written : List UInt8 := []
  /-- How often the sink has been flushed, failures included. -/
  flushes : Nat := 0
deriving Repr, DecidableEq

namespace Sink

def refusal (sink : Sink) : String :=
  if sink.terms.stalls then "failed to write whole buffer"
  else sink.terms.message

/-- Receives bytes for which there is room. -/
def accept (sink : Sink) (bytes : List UInt8) : Sink :=
  { sink with
    written := sink.written ++ bytes
    terms := { sink.terms with
      room := sink.terms.room.map (fun room => room - bytes.length) } }

theorem accept_nil (sink : Sink) : sink.accept [] = sink := by
  rcases sink with ⟨⟨room, _, _, _⟩, _, _⟩
  cases room <;> simp [accept]

/-- Bytes received one after another are received together. -/
theorem accept_accept (sink : Sink) (first second : List UInt8) :
    (sink.accept first).accept second = sink.accept (first ++ second) := by
  rcases sink with ⟨⟨room, _, _, _⟩, _, _⟩
  cases room <;> simp [accept, Nat.sub_sub]

/-- Writes bytes; if there is not room for all of them, as many as fit. -/
def write (bytes : List UInt8) : Action Sink Unit :=
  fun sink =>
    match sink.terms.room with
    | none => ⟨.ok (), sink.accept bytes, []⟩
    | some room =>
        if bytes.length ≤ room then
          ⟨.ok (), sink.accept bytes, []⟩
        else
          ⟨.error (.sinkRefused sink.refusal), sink.accept (bytes.take room),
            []⟩

theorem write_of_fits {sink : Sink} {bytes : List UInt8}
    (hfits : ∀ room, sink.terms.room = some room → bytes.length ≤ room) :
    write bytes sink = ⟨.ok (), sink.accept bytes, []⟩ := by
  rw [write]
  cases hroom : sink.terms.room with
  | none => rfl
  | some room => exact if_pos (hfits room hroom)

/-- A sink without room for all bytes takes those for which it has room. -/
theorem write_of_cut {sink : Sink} {bytes : List UInt8} {room : Nat}
    (hroom : sink.terms.room = some room) (hcut : room < bytes.length) :
    write bytes sink =
      ⟨.error (.sinkRefused sink.refusal), sink.accept (bytes.take room),
        []⟩ := by
  rw [write, hroom]
  exact if_neg (Nat.not_le.mpr hcut)

def flush : Action Sink Unit :=
  fun sink =>
    let flushed := { sink with flushes := sink.flushes + 1 }
    if sink.terms.flushFails then
      ⟨.error (.sinkRefused sink.terms.message), flushed, []⟩
    else
      ⟨.ok (), flushed, []⟩

/-- Puts a sink on new terms and keeps what it has received. -/
def renegotiate (terms : SinkTerms) : Action Sink Unit :=
  Action.modify (fun sink => { sink with terms })

end Sink

end SpimGen
