/-
  File:      DeveSub/Application/Clash.lean
  Subject:   The cycle check of native Clash groups (`deve-sub-application`:
             `template/clash.rs`).

  A configuration is a map, as the list of its entries in the order in which it is iterated. The
  cycle check starts from a hash set of names: its order is that of the document here, and
  `eliminates` takes any.
-/
import DeveSub.Application.ClashRules
import DeveSub.Lib.Elimination

namespace DeveSub.Clash

/-- `invalid`. -/
def invalid {α : Type} (message : Str) : Except TemplateAppError α :=
  .error (.invalidInput message)

/-! ## 1. Validation -/

/-- `edges`: of the members of each group those that are groups. -/
def edgesOf (names : List Str) (groups : List (Str × List Str)) : List (Str × List Str) :=
  groups.map fun g => (g.1, g.2.filter names.contains)

/-- `edges[name]`. -/
def membersOf (edges : List (Str × List Str)) (name : Str) : List Str :=
  ((edges.find? fun e => e.1 = name).map Prod.snd).getD []

/-- The topological elimination, from the names in the order in which the set is iterated:
    whether all of them come out. -/
def eliminates (names : List Str) (edges : List (Str × List Str)) : Bool :=
  Elimination.run names (membersOf edges) = some names.length

end DeveSub.Clash
