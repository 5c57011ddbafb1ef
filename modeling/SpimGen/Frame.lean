/-
Slots of a stack frame.  The offset is a signed 32-bit word and goes round
when it passes the last one.
-/

namespace SpimGen

/-- The next free slot of a stack frame. -/
structure Frame where
  offset : Int32 := 0
deriving Repr, DecidableEq

namespace Frame

/-- Reserves a slot of the given size: the slot's offset, and the frame after
it. -/
def advance (frame : Frame) (bytes : Int32) : Int32 × Frame :=
  (frame.offset, ⟨frame.offset + bytes⟩)

def set (_frame : Frame) (offset : Int32) : Frame :=
  ⟨offset⟩

end Frame

end SpimGen
