import BanBoard.Client.Command
import BanBoard.Shell.Word

/-!
A daemon that plays given answers. Each command has a list of them and gets the next one whenever it
is sent, the last one again and again.
-/

namespace BanBoard.Client

/-- The answers to each command, which is known by its words joined by spaces. -/
abbrev Script := List (List Char × List Reply)

def noReply : Reply := .ok ⟨[], "no reply".toList, some 255⟩

/-- The answer to a command that has been sent so many times before. -/
def replyAt (replies : List Reply) (before : Nat) : Reply :=
  match replies[before]? with
  | some reply => reply
  | none => replies.getLast?.getD noReply

/-- The daemon of a script. Its state is the commands that it has been sent, in order. -/
def scripted (script : Script) : Daemon (List (List Char)) := fun sent words =>
  let command := Shell.joinWords words
  let replies := ((script.find? fun entry => entry.1 = command).map Prod.snd).getD []
  (replyAt replies (sent.count command), sent ++ [command])

end BanBoard.Client
