import BanBoard.Http.Routes
import BanBoard.Proofs.Service.FixedReplies
import BanBoard.Proofs.Service.LiveTimeline

/-!
A live status of what can be read. The daemon has to list its jails; beyond that, a jail that cannot be
read, ban times that cannot be read and a log that cannot be read each cost their own part and no other.
-/

namespace BanBoard.Service

open BanBoard.Client
open BanBoard.Overview
open BanBoard.Time (Instant Zone)

section Jails

variable {jail : List Char} {replies others : Words → Reply}

end Jails

section Status

variable {σ : Type} {service : Service σ} {replies : Words → Reply} (hLive : service.mode = .live)
  (hFixed : Answers service.daemon replies)
include hLive hFixed

/-- The replies decide about the jails of a live status, and the log about its timeline. There is no
status of jails with a total that is no word. -/
theorem statusAt_eq {state : State σ} {now : Instant} {buckets : List Bucket}
    (hTimeline : timeline? (loggedBans state now) now = some buckets) :
    (service.statusAt state now).1 =
      ((Client.result (replies ["status".toList])).mapError Error.ofCommand).bind fun text =>
        let jails := recordsOf service.zone replies (Status.jailList text)
        match Totals.ofJails? jails with
        | some totals => .ok ⟨.live, now, totals, jails, buckets, topOffenders jails shownOffenders⟩
        | none => .error .panic := by
  rw [statusAt_live hLive, fst_liveJails hFixed]
  cases Client.result (replies ["status".toList]) with
  | error failure => rfl
  | ok text => exact snapshotOf_eq hTimeline .live _

end Status

end BanBoard.Service
