/-
The built-in registry and triggers.

The crates stand in the order in which their jobs are listed.  The list is kept
by hand; the drift check compares it with the directories on disk.
-/
import ChangeImpact.Selection

namespace ChangeImpact
namespace Catalog

def root : String := "crates/cairo-lang-"

def crates : List String := [
  "casm", "compiler", "debug", "defs", "diagnostics", "eq-solver", "filesystem", "formatter",
  "language-server", "lowering", "parser", "plugins", "proc_macros", "project", "runner",
  "semantic", "sierra", "sierra-ap-change", "sierra-gas", "sierra-generator", "sierra-to-casm",
  "starknet", "syntax", "syntax-codegen", "test-runner", "test-utils", "utils"]

def native : Trigger := ⟨".rs", ⟨"-rust-"⟩⟩

def dsl : Trigger := ⟨".cairo", ⟨"-cairo-"⟩⟩

def registry : Registry where
  root := root
  crates := crates
  ne_empty := by decide
  nodup := by decide +kernel

def config : Config := ⟨registry, native, dsl⟩

/-- The built-in names pass the checks of a registry. -/
theorem ofNames_crates : Registry.ofNames root crates = .ok registry :=
  registry.ofNames_root_crates

end Catalog
end ChangeImpact
