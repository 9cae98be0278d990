import InlineReport.Data.SetOrder
import InlineReport.Host.Tree
import InlineReport.Yaml.Document

/-!
# A usual host

A loader of settings texts, and the worlds that have it. The program itself does not depend on it;
the loader is chosen where the program is put to work.
-/

namespace InlineReport

namespace Yaml

/-- How deeply collections may be nested in a settings text. -/
def deepest : Nat := 490

/-- The loader that is used where there is no other. -/
def usualLoad? : Text → Option (Value × Store) := load? deepest SetOrder.arrange

end Yaml

/-- A world with the usual limits and the usual loader. -/
def World.usual (tree : Tree) (workplace : Path)
    (process : ProcessStart → Tree → ProcessEnd × Tree) : World where
  tree
  workplace
  limits := .usual
  load? := Yaml.usualLoad?
  process

end InlineReport
