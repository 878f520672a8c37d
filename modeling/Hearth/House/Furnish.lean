import Hearth.House.Install

/-!
# Furnishing a house

A furnished house knows the verbs that are always there and the modules that can be loaded, and a
worker of the system tears everything down on shutdown. Workers of the system also write the log:
one before and one after all handlers of an event, and one for failures.
-/

namespace Hearth.Act

/-- Registers the verbs that are always there, the teardown, and the modules that can be loaded. -/
def furnish : Act Unit := do
  Verb.core.forM addVerb
  let _ ← register (.teardown (← get).bands.teardown)
  Module.builtIn.forM addModule

/-- Registers the workers that log events, at the given level, their ends and failures. -/
def installLoggers (level : Level) : Act Unit := do
  let bands := (← get).bands
  let _ ← register (.eventLog bands.eventLog level)
  let _ ← register (.doneLog bands.doneLog)
  let _ ← register (.failureLog bands.failureLog)

end Hearth.Act
