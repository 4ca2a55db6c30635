import AgentWorkbench.Instrument.Hook
import AgentWorkbench.Instrument.Imports

/-!
Instrumenting a source, so that the program prints its own graph when it runs: the imports, the
routine and the hook are inserted one after the other, each unless it is there already.
-/
namespace AgentWorkbench

def instrument (source : String) : String :=
  open Instrument in
  String.ofList (injectHook (injectRoutine (injectImports source.toList)))

end AgentWorkbench
