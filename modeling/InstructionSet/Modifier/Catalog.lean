import InstructionSet.Modifier

/-!
# Catalogs of modifiers

A layout may name a modifier by a tag instead of placing it. A catalog tells what placement each
tag stands for; the tag need not be the name of the modifier.
-/

namespace InstructionSet

set_option autoImplicit false

/-- Placements of modifiers under their tags. -/
abbrev Catalog := NameMap ModifierPlacement

namespace Catalog

/-- The tags of the usual instruction descriptions. -/
def standardEntries : List (String × ModifierPlacement) :=
  [ ("inactive_result", { name := "inactive_result", start := 22, size := 4 }),
    ("store_segment", { name := "store_segment", start := 24, size := 2 }),
    ("regfmt", { name := "register_format", start := 24, size := 3 }),
    ("vecsize", { name := "vector_size", start := 28, size := 2 }),
    ("slot", { name := "slot", start := 30, size := 3 }),
    ("roundmode", { name := "round_mode", start := 30, size := 2 }),
    ("result_type", { name := "result_type", start := 30, size := 2 }),
    ("saturate", { name := "saturate", start := 30, size := 1 }),
    ("not_result", { name := "not_result", start := 30, size := 1 }),
    ("lane_op", { name := "lane_operation", start := 32, size := 2 }),
    ("cmp", { name := "condition", start := 32, size := 3 }),
    ("clamp", { name := "clamp", start := 32, size := 2 }),
    ("sr_count", { name := "staging_register_count", start := 33, size := 3, implied := true }),
    ("subgroup", { name := "subgroup_size", start := 36, size := 2 }) ]

/-- The catalog of the usual instruction descriptions. -/
def standard : Catalog :=
  standardEntries.foldl (fun catalog (tag, placement) => catalog.insert tag placement) .empty

/-- The modifier that a tag stands for, with values from a registry. -/
def resolve (catalog : Catalog) (enums : Registry) (tag : String) : Except BuildError Modifier :=
  match catalog.find? tag with
  | some placement => placement.resolve enums
  | none => .error (.unknownTag tag catalog.names)

end Catalog
end InstructionSet
