import InstructionSet.Numeral

/-!
# Mnemonics

The name of an instruction tells the width of its operands: the last characters of the mnemonic
are read as a number of bits. Three widths are recognised first, since two digits do not tell them
from their endings; every other ending is a number of at most two characters, and a mnemonic that
ends otherwise has operands of thirty-two bits.
-/

namespace InstructionSet.Mnemonic

set_option autoImplicit false

/-- The width of operands whose mnemonic does not end in a number. -/
def defaultWidth : UInt8 := 32

/-- The number that the last characters of a mnemonic write, or the default width. -/
def endingWidth (ending : List Char) : UInt8 :=
  ((Numeral.signed? 10 ending).map UInt8.ofNat).getD defaultWidth

/-- The width of the operands, from the characters of the mnemonic taken from its end. -/
def widthFromEnd : List Char → UInt8
  | '8' :: '2' :: '1' :: _ => 128
  | '8' :: '4' :: _ => 48
  | '8' :: _ => 8
  | last :: previous :: _ => endingWidth [previous, last]
  | ending => endingWidth ending

/-- The width of the operands of an instruction with the given name. -/
def width (name : String) : UInt8 :=
  widthFromEnd name.toList.reverse

/-- The mnemonics whose secondary opcode holds the size of a memory access start so. -/
def memoryAccess : List String := ["LOAD.i", "STORE.i"]

/-- Whether the secondary opcode of an instruction with the given name holds the size of a memory
access. -/
def accessesMemory (name : String) : Bool :=
  memoryAccess.any fun start => start.toList.isPrefixOf name.toList

end InstructionSet.Mnemonic
