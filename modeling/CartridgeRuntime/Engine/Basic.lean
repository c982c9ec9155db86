import CartridgeRuntime.Core.Text

/-!
# Limits and names of the engine

The limits that the modules of the engine share, and the checks of names, which are those of the
core crate.
-/

namespace CartridgeRuntime.Engine

open CartridgeRuntime.Core

/-- The limits of a stack. -/
def maxStackInstances : Nat := 64
def maxStackReplicas : Nat := 32
def maxStackTotalReplicas : Nat := 256
def maxStackTotalSurgeReplicas : Nat := 64
def maxStackRestarts : Nat := 64
def maxStackResources : Nat := 128
def maxStackSecrets : Nat := 128
def maxStackArguments : Nat := 256
def maxStackArgumentBytes : Nat := 64 * 1024
def maxStackPlanBytes : Nat := 8 * 1024 * 1024

/-- A name of a stack, an instance, a resource or a secret. -/
def validName (value : String) : Bool :=
  isBoundedSegment 64 value.toList

/-- An id of a cartridge. -/
def validCartridgeId (value : String) : Bool :=
  isCartridgeId value

/-- A text without control characters, of bounded size. -/
def validText (value : String) (maximum : Nat) (allowEmpty : Bool) : Bool :=
  isBoundedText value maximum allowEmpty

end CartridgeRuntime.Engine
