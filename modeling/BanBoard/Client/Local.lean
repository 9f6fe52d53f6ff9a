import BanBoard.Client.Launch
import BanBoard.Shell.Run

/-!
Launching the daemon's client on a machine. A program that keeps its streams open for longer than the
timeout has no output at all.
-/

namespace BanBoard.Client

open BanBoard.Shell (Host)
open BanBoard.Text

/-- Launch the client with the words of a command. -/
def Launch.run (launch : Launch) (host : Host) (words : Words) : Reply × Host :=
  let (program, arguments) := launch.commandLine words
  match host.start program arguments with
  | .error fault => (.error (.spawn program fault.message), host)
  | .ok (machine, ending) =>
    if launch.timeout ≤ max machine.clock machine.busyUntil then (.error (.timeout program launch.timeout), machine.host)
    else
      let code : Option Int := if ending = .killed then none else some machine.status
      (.ok ⟨decodeLossy machine.stdout, decodeLossy machine.stderr, code⟩, machine.host)

/-- The daemon behind a client that is launched for every command. -/
def Launch.daemon (launch : Launch) : Daemon Host := fun host words => launch.run host words

end BanBoard.Client
