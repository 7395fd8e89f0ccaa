import RemoteGuard.Engine.Basic

/-!
# A scripted engine

An engine that answers from a script, for rehearsals: the first compilation and the first run get
the first answers, and so on; after the end of the script rulesets compile and runs match nothing.
-/

namespace RemoteGuard

structure Script where
  compilations : List (Except EngineError Compilation) := []
  runs : List (Except EngineError Evaluation) := []
deriving Inhabited

def Script.engine (s : Script) : Engine where
  compile earlier _ := s.compilations.getD (earlier.countP EngineCall.isCompile) (.ok {})
  run earlier _ _ _ := s.runs.getD (earlier.countP EngineCall.isRun) (.ok {})

end RemoteGuard
