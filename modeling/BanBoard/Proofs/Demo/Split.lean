import BanBoard.Demo.Data
import BanBoard.Proofs.Demo.Plan

/-!
Drawing apart from dating. Bans go into their jail while they are drawn, and events get their times while
they are drawn, but no draw looks at what was made of the draws before it. So the same data comes from a
plan that is drawn without any present and is dated at the end.
-/

namespace BanBoard.Demo

open BanBoard.Random
open BanBoard.Time (Instant)

/-- A planned jail with its bans. An address that is planned twice is banned once. -/
def PlannedJail.at_ (now : Instant) (plan : PlannedJail) : Jail :=
  let jail := plan.bans.foldl (fun jail ban => (jail.addBanned (ban.entry now plan.name)).2)
    (Jail.empty plan.name)
  { jail with
    currentlyFailed := plan.currentlyFailed.toUInt64
    totalFailed := plan.totalFailed.toUInt64
    totalBanned := (jail.currentlyBanned + plan.otherBanned).toUInt64 }

/-- A planned event, not later than the present. -/
def PlannedEvent.at_ (now : Instant) (event : PlannedEvent) : Instant :=
  eventTime now event.hoursAgo event.second

/-- The times of a plan in no order: those of its events, then those of the bans that are listed. -/
def Plan.times (now : Instant) (plan : Plan) : List Instant :=
  plan.events.map (PlannedEvent.at_ now) ++ banTimes (plan.jails.map (PlannedJail.at_ now))

/-- The data of a plan. -/
def Plan.data (now : Instant) (plan : Plan) : Data :=
  ⟨plan.jails.map (PlannedJail.at_ now), (plan.times now).mergeSort Instant.le⟩

variable {α β γ : Type}

/-- Results that are changed one by one may be changed together. -/
theorem times_map (draw : Draw α) (f : α → β) (count : Nat) :
    times (f <$> draw) count = List.map f <$> times draw count := by
  induction count with
  | zero => rfl
  | succ count ih =>
      rw [times, times, ih]
      simp only [map_eq_pure_bind, bind_assoc, pure_bind, List.map_cons]

/-- One draw per element, with a function behind each, is the function behind all of them. -/
theorem forEach_map (draw : γ → Draw α) (f : α → β) (xs : List γ) :
    forEach (fun x => f <$> draw x) xs = List.map f <$> forEach draw xs := by
  induction xs with
  | nil => rfl
  | cons x xs ih =>
      rw [forEach, forEach, ih]
      simp only [map_eq_pure_bind, bind_assoc, pure_bind, List.map_cons]

variable (tries : Nat) (now : Instant)

/-- A jail never decides what is drawn for it next. -/
theorem drawBans_eq (pool : List Origin) (name : List Char) (count : Nat) (jail : Jail) :
    drawBans tries now pool name count jail =
      List.foldl (fun jail ban => (jail.addBanned (ban.entry now name)).2) jail <$>
        times (drawBan tries pool) count := by
  induction count generalizing jail with
  | zero => rfl
  | succ count ih =>
      rw [drawBans, times]
      simp only [ih, map_eq_pure_bind, bind_assoc, pure_bind, List.foldl_cons]

/-- The jail at an instant is drawn as its plan and then dated. -/
theorem drawJail_eq (pool : List Origin) (name : String) :
    drawJail tries now pool name = PlannedJail.at_ now <$> planJail tries pool name := by
  rw [drawJail, planJail]
  simp only [drawBans_eq, map_eq_pure_bind, bind_assoc, pure_bind]
  rfl

/-- The events of an hour are drawn as their plan and then dated. -/
theorem drawEvents_eq (hoursAgo : Nat) (name : String) :
    drawEvents tries now hoursAgo name =
      List.map (PlannedEvent.at_ now) <$> planEvents tries hoursAgo name := by
  have hEvent : (do return eventTime now hoursAgo (← range64 tries 0 3600)) =
      PlannedEvent.at_ now <$> (do return ⟨hoursAgo, ← range64 tries 0 3600⟩ : Draw PlannedEvent) := by
    simp only [map_eq_pure_bind, bind_assoc, pure_bind]
    rfl
  rw [drawEvents, planEvents, map_bind]
  exact congrArg _ (funext fun count => (congrArg (times · count) hEvent).trans (times_map _ _ count))

/-- The present has no part in what is drawn. -/
theorem drawData_eq : drawData tries now = Plan.data now <$> drawPlan tries := by
  have hJails (pool : List Origin) : drawJail tries now pool =
      fun name => PlannedJail.at_ now <$> planJail tries pool name :=
    funext (drawJail_eq tries now pool)
  have hEvents (hoursAgo : Nat) : drawEvents tries now hoursAgo =
      fun name => List.map (PlannedEvent.at_ now) <$> planEvents tries hoursAgo name :=
    funext (drawEvents_eq tries now hoursAgo)
  rw [drawData, drawPlan]
  simp only [hJails, hEvents, forEach_map, map_bind, bind_map_left, map_pure]
  simp only [Plan.data, Plan.times, List.map_flatten]

variable {tries now} {stream rest : Stream} {data : Data}

/-- What is drawn at an instant is the data of a plan that is drawn from the same words. -/
theorem run_drawData_eq_some_iff :
    (drawData tries now).run stream = some (data, rest) ↔
      ∃ plan, (drawPlan tries).run stream = some (plan, rest) ∧ plan.data now = data := by
  rw [drawData_eq, StateT.run_map]
  simp only [Option.map_eq_map, Option.map_eq_some_iff, Prod.mk.injEq, Prod.exists]
  exact ⟨fun ⟨plan, _, hRun, hData, hRest⟩ => ⟨plan, hRest ▸ hRun, hData⟩,
    fun ⟨plan, hRun, hData⟩ => ⟨plan, rest, hRun, hData, rfl⟩⟩

/-- From any stream, the data at an instant is that of the plan that the same stream gives. -/
theorem map_fst_run_drawData (tries : Nat) (now : Instant) (stream : Stream) :
    ((drawData tries now).run stream).map Prod.fst =
      (((drawPlan tries).run stream).map Prod.fst).map (Plan.data now) := by
  rw [drawData_eq, StateT.run_map]
  cases (drawPlan tries).run stream <;> rfl

theorem isSteady_drawPlan : IsSteady drawPlan := fun _ _ hLe => keeps_drawPlan hLe

/-- The data is dated behind the last draw, so its tries are those of the plan. -/
theorem isSteady_drawData (now : Instant) : IsSteady fun tries => drawData tries now := by
  intro tries more hLe s ⟨data, rest⟩ hRun
  obtain ⟨plan, hPlan, hData⟩ := run_drawData_eq_some_iff.mp hRun
  exact run_drawData_eq_some_iff.mpr ⟨plan, keeps_drawPlan hLe s _ hPlan, hData⟩

/-- Where the oldest hour is in the calendar, the data are those of the plan that is drawn, if the draws
come to an end. -/
theorem Data.ofStream?_eq (h : ((eventHour now).addSeconds (-(3600 * 23))).isRepresentable = true)
    (stream : Stream) : Data.ofStream? stream now = (drawn? drawPlan stream).map (Plan.data now) := by
  rw [Data.ofStream?, if_pos h]
  refine Option.ext fun data => ?_
  rw [drawn?_eq_some_iff (isSteady_drawData now), Option.map_eq_some_iff]
  simp only [drawn?_eq_some_iff isSteady_drawPlan, map_fst_run_drawData, Option.map_eq_some_iff]
  exact ⟨fun ⟨tries, plan, hRun, hData⟩ => ⟨plan, ⟨tries, hRun⟩, hData⟩,
    fun ⟨plan, ⟨tries, hRun⟩, hData⟩ => ⟨tries, plan, hRun, hData⟩⟩

end BanBoard.Demo
