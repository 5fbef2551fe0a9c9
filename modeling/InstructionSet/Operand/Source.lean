import InstructionSet.BitField
import InstructionSet.BuildError

/-!
# Sources

A source is an operand that an instruction reads. Its capabilities claim bits of the encoded
instruction, at places that depend on the index of the source: the first three sources have a slot
each, counted down from the third, for absolute value and negation and for a swizzle; the other
capabilities have one place, or one for each of two kinds of index.
-/

namespace InstructionSet

set_option autoImplicit false

/-- What a source can do besides being read. -/
structure SourceTraits where
  /-- The source is a floating-point number. -/
  float : Bool := false
  /-- Halves or bytes of the source can be selected. -/
  swizzle : Bool := false
  /-- The source can be widened. -/
  widen : Bool := false
  /-- The source can be taken by lanes. -/
  lanes : Bool := false
  /-- The source can be made absolute and negated. -/
  absNeg : Bool := false
  /-- The source can be complemented bit by bit. -/
  not : Bool := false
  deriving DecidableEq

/-- Where the lane selector of a source is asked for. -/
inductive LaneChoice where
  /-- At the usual place. -/
  | automatic
  /-- At a given bit; bit zero stands for no selector. -/
  | bit (position : UInt8)
  deriving DecidableEq

/-- A source as a layout declares it. -/
structure SourceForm where
  /-- Name of the source, possibly empty. -/
  name : String := ""
  /-- Width in bits, when it is not the one that the mnemonic tells. -/
  size : Option UInt8 := none
  /-- Capabilities. -/
  traits : SourceTraits := {}
  /-- Lane selector, if any. -/
  lane : Option LaneChoice := none
  deriving DecidableEq

/-- A source of an instruction. -/
structure Source where
  /-- Name of the source, possibly empty. -/
  name : String
  /-- Place among the sources of the instruction. -/
  index : UInt8
  /-- Width in bits. -/
  size : UInt8
  /-- Capabilities. -/
  traits : SourceTraits
  /-- First bit of the lane selector, if there is one. -/
  lane : Option UInt8
  deriving DecidableEq

/-! ## The bits of a source -/

/-- The bit fields that a source claims. -/
structure SourceEncoding where
  /-- Negation. -/
  neg : Option BitField
  /-- Absolute value. -/
  abs : Option BitField
  /-- Complement. -/
  not : Option BitField
  /-- Widening, or selection by lanes. -/
  widen : Option BitField
  /-- Lane selector. -/
  lane : Option BitField
  /-- Swizzle. -/
  swizzle : Option BitField
  deriving DecidableEq

/-- The claimed fields under their labels. -/
def SourceEncoding.fields (encoding : SourceEncoding) : List (String × BitField) :=
  [ ("neg", encoding.neg), ("abs", encoding.abs), ("not", encoding.not),
    ("widen", encoding.widen), ("lane", encoding.lane), ("swizzle", encoding.swizzle) ].filterMap
      fun (label, field?) => field?.map fun field => (label, field)

namespace Source

/-- The slot of a source, counted down from the third one. -/
def slot? (index : UInt8) : Option UInt8 :=
  if index ≤ 2 then some (2 - index) else none

/-- The field of negation; the bit above it is for the absolute value. -/
def negField? (index : UInt8) : Option BitField :=
  (slot? index).map fun slot => ⟨34 + 2 * slot, 1⟩

/-- The field of the absolute value. -/
def absField? (index : UInt8) : Option BitField :=
  (slot? index).map fun slot => ⟨35 + 2 * slot, 1⟩

/-- The field of the swizzle. -/
def swizzleField? (index : UInt8) : Option BitField :=
  (slot? index).map fun slot => ⟨24 + 2 * slot, 2⟩

/-- The field of widening or of the selection by lanes. -/
def widenField (index : UInt8) : BitField :=
  ⟨if index = 1 then 26 else 36, 4⟩

/-- The usual first bit of a lane selector. -/
def usualLane (index : UInt8) : UInt8 :=
  if index = 0 then 38 else 36

/-- The field of a lane selector, which is narrower for sizes with two lanes. -/
def laneField (size first : UInt8) : BitField :=
  ⟨first, if size = 8 ∨ size = 32 then 2 else 1⟩

/-- The fields that the capabilities of a source claim. -/
def encoding (source : Source) : SourceEncoding where
  neg := if source.traits.absNeg then negField? source.index else none
  abs := if source.traits.absNeg then absField? source.index else none
  not := if source.traits.not then some ⟨35, 1⟩ else none
  widen :=
    if source.traits.widen || source.traits.lanes then some (widenField source.index) else none
  lane := source.lane.map (laneField source.size)
  swizzle := if source.traits.swizzle then swizzleField? source.index else none

/-- Whether the source shares its bits with an adjustment of its width. -/
def adjustsWidth (source : Source) : Bool :=
  source.traits.widen || source.traits.lanes

/-! ## From a form to a source -/

/-- A source without name and capabilities. -/
def plain (index size : UInt8) : Source where
  name := ""
  index := index
  size := size
  traits := {}
  lane := none

/-- The first bit of the lane selector that a choice asks for. -/
def laneBit? (index : UInt8) : LaneChoice → Option UInt8
  | .automatic => some (usualLane index)
  | .bit position => if position = 0 then none else some position

/-- Refuses a capability to a source that has no slot for it. -/
def requireSlot (index : UInt8) (capability : SlottedCapability) : Except BuildError Unit :=
  if (slot? index).isSome then .ok () else .error (.sourceWithoutSlot index capability)

/-- Refuses a swizzle to a source that is neither sixteen nor thirty-two bits wide. -/
def requireSwizzleWidth (index size : UInt8) : Except BuildError Unit :=
  if size = 16 ∨ size = 32 then .ok () else .error (.swizzleWidth index size)

/-- The source that a form declares at a place, for a mnemonic that tells the given width. What can
be made absolute and negated is a floating-point number. -/
def resolve (form : SourceForm) (index defaultSize : UInt8) : Except BuildError Source := do
  let size := form.size.getD defaultSize
  if form.traits.absNeg then
    requireSlot index .absNeg
  if form.traits.swizzle then
    requireSwizzleWidth index size
    requireSlot index .swizzle
  return {
    name := form.name
    index := index
    size := size
    traits := { form.traits with float := form.traits.float || form.traits.absNeg }
    lane := form.lane.bind (laneBit? index) }

end Source
end InstructionSet
