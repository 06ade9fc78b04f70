/-!
# The size of an automaton

A pattern is searched for by automata over bytes. They are not built: an `Extent` holds how many
states there are so far and what their lists take, and each part of a pattern adds to it. States are
numbered in the order in which they are added, so the number of the next one is the number of those
that there are.
-/

namespace FlowSafety.Pattern

/-- The greatest memory of an automaton. -/
def maxMemory : Nat := 10 * 1024 * 1024

/-- The memory of a state without its lists. -/
def stateCost : Nat := 32

/-- The memory of a way on for a range of bytes, in a list of such ways. -/
def wayCost : Nat := 8

/-- The memory of a way on that takes no byte, in a list of such ways. -/
def branchCost : Nat := 4

/-- The size of an automaton so far: the number of its states, and the memory of their lists. -/
structure Extent where
  states : Nat := 0
  lists : Nat := 0
deriving DecidableEq, Repr

namespace Extent

def memory (e : Extent) : Nat := stateCost * e.states + e.lists

/-- With one more state, whose lists take the given memory. -/
def add (lists : Nat) (e : Extent) : Extent := ⟨e.states + 1, e.lists + lists⟩

def plus (e f : Extent) : Extent := ⟨e.states + f.states, e.lists + f.lists⟩

/-- The extent, if it is within the limit. -/
def checked (e : Extent) : Option Extent := if e.memory ≤ maxMemory then some e else none

/-- What so many steps lead to, as long as each stays within the limit. -/
def repeated (step : Extent → Option Extent) : Nat → Extent → Option Extent
  | 0, e => some e
  | n + 1, e =>
    match step e with
    | some e => repeated step n e
    | none => none

end Extent

end FlowSafety.Pattern
