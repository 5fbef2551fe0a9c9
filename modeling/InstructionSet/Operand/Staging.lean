import InstructionSet.BuildError

/-!
# Staging registers

Instructions that move whole registers name them as staging registers, of which at most two can be
encoded. The first one says in its flags whether it is read and written; the flags of the second
one are always set.
-/

namespace InstructionSet

set_option autoImplicit false

/-- A staging register as a layout declares it. -/
structure StagingForm where
  /-- Name of the register, possibly empty. -/
  name : String := ""
  /-- The register is read. -/
  read : Bool := false
  /-- The register is written. -/
  write : Bool := false
  /-- Number of consecutive registers, or zero when it is told elsewhere. -/
  count : UInt8 := 0
  /-- The register has flags for reading and writing. -/
  flags : Bool := true
  deriving DecidableEq

/-- A staging register of an instruction. -/
structure Staging extends StagingForm where
  /-- Place among the staging registers of the instruction. -/
  index : UInt8
  deriving DecidableEq

namespace Staging

/-- The width of every staging register. -/
def size : UInt8 := 32

/-- The first bit of the register's number in the encoded instruction. -/
def start (register : Staging) : UInt8 :=
  if register.index = 0 then 40 else 16

/-- The flags as they are encoded with the register's number. -/
def encodedFlags (register : Staging) : UInt8 :=
  if !register.flags then 0
  else if register.index > 0 then 0xC0
  else (if register.write then 0x80 else 0) ||| (if register.read then 0x40 else 0)

/-- The staging register that a form declares at a place. -/
def resolve (form : StagingForm) (index : UInt8) : Except BuildError Staging :=
  if index > 1 then .error (.stagingOutOfRange index) else .ok { form with index }

end Staging
end InstructionSet
