import LogPipeline.Plugin

namespace LogPipeline

namespace Merge

/-!
# Plugin instances declared at two places

Two lists are put one after the other, and every instance that equals one kept
before it is left out, so that first occurrences stay in their order.
-/

/-- The instances that are kept from a list, given those kept before it. -/
def keep (kept : List Plugin) : List Plugin → List Plugin
  | [] => []
  | plugin :: rest =>
    if kept.any fun seen => seen.same plugin then keep kept rest
    else plugin :: keep (kept ++ [plugin]) rest

/-- A list without the instances that equal one kept before them. -/
def distinct (plugins : List Plugin) : List Plugin :=
  keep [] plugins

/-- Two lists one after the other, without repetitions. -/
def merge (primary secondary : List Plugin) : List Plugin :=
  distinct (primary ++ secondary)

end Merge

end LogPipeline
