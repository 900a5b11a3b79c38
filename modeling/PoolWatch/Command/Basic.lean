import PoolWatch.Settings.Load

/-!
# Commands

What the command line can ask for. Watching on the full screen is what it asks for when it names no
command.
-/

namespace PoolWatch

/-- What the program can be asked to do. -/
inductive Command
  | watch (plain : Bool)
  | status
  | relay (port : Option UInt16)
  | init (force : Bool)
deriving DecidableEq

/-- A command line. Both the command and the folder may be left out. -/
structure Invocation where
  command : Option Command
  config : Option String
deriving DecidableEq

namespace Invocation

/-- Without a command the program watches. -/
def effective (i : Invocation) : Command := i.command.getD (.watch false)

/-- The screen belongs to the full-screen view, so it logs nothing. -/
def logFilter (i : Invocation) : String :=
  if i.effective = .watch false then "off" else "info"

def folder (i : Invocation) (environment : List (String × String)) : String :=
  i.config.getD (Settings.defaultFolder environment)

end Invocation

end PoolWatch
