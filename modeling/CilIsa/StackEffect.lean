/-!
# Stack effects

How many values an instruction pushes and pops. The number of pops -1 is kept for instructions that
discard the whole evaluation stack.
-/

namespace CilIsa

/-- The values pushed and popped by one instruction. -/
structure StackEffect where
  pushes : Int32 := 0
  pops : Int32 := 0
  deriving DecidableEq

namespace StackEffect

/-- The number of pops that stands for all values on the stack. -/
def allPops : Int32 := -1

/-- Whether the whole stack is discarded. -/
def clears (e : StackEffect) : Bool := e.pops == allPops

/-- The pushes, a slash and the pops, or the word `all` in their place. -/
def text (e : StackEffect) : String :=
  e.pushes.toInt.repr ++ "/" ++ if e.clears then "all" else e.pops.toInt.repr

theorem clears_iff {e : StackEffect} : e.clears = true ↔ e.pops = allPops := beq_iff_eq

end StackEffect

end CilIsa
