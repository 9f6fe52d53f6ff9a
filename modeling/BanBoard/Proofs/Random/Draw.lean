import BanBoard.Random.Draw
import Mathlib.Data.List.Forall2

/-!
What draws yield, whatever the stream. A property of results is carried from one draw to the next, so a
draw from a range is in the range however many words were rejected. The number of tries decides whether
there is a result and never which one, so a whole computation has the result that it has with any number
of tries that is enough.
-/

namespace BanBoard.Random

variable {α β : Type}

/-- Every result of a draw has a property, from whatever position of a stream it is drawn. -/
def Yields (draw : Draw α) (P : α → Prop) : Prop :=
  ∀ (s : Stream) (x : α) (rest : Stream), draw s = some (x, rest) → P x

variable {draw : Draw α} {P Q : α → Prop}

/-- What follows from a property of the results is one of them too. -/
theorem Yields.imp (h : Yields draw P) (hImp : ∀ x, P x → Q x) : Yields draw Q :=
  fun s x rest hRun => hImp x (h s x rest hRun)

/-- Without a result there is nothing to say about one. -/
theorem yields_fail : Yields (fun _ => none : Draw α) P := fun _ _ _ h => nomatch h

theorem yields_pure {x : α} (h : P x) : Yields (pure x) P := by
  intro s y rest hRun
  obtain ⟨rfl, -⟩ := Prod.mk.inj (Option.some.inj hRun)
  exact h

/-- What is drawn next may rely on the property of what was drawn before. -/
theorem Yields.bind {next : α → Draw β} {Q : β → Prop} (hDraw : Yields draw P)
    (hNext : ∀ x, P x → Yields (next x) Q) : Yields (draw >>= next) Q := by
  intro s y rest hRun
  obtain ⟨⟨x, middle⟩, hFirst, hSecond⟩ := Option.bind_eq_some_iff.mp hRun
  exact hNext x (hDraw s x middle hFirst) middle y rest hSecond

theorem yields_word32 : Yields word32 (· < 2 ^ 32) := by
  intro s x rest hRun
  obtain ⟨rfl, -⟩ := Prod.mk.inj (Option.some.inj hRun)
  exact s.next.1.toNat_lt

/-- Two words make one of twice the size. -/
theorem yields_word64 : Yields word64 (· < 2 ^ 64) :=
  yields_word32.bind fun low hLow => yields_word32.bind fun high hHigh => yields_pure (by omega)

/-- The upper half of a product is below the factor that is no word. -/
theorem yields_reject {word : Draw Nat} {bits size zone : Nat} (hSize : 0 < size)
    (hWord : Yields word (· < 2 ^ bits)) (tries : Nat) :
    Yields (reject word bits size zone tries) (· < size) := by
  induction tries with
  | zero => exact yields_fail
  | succ tries ih =>
      refine hWord.bind fun w hw => ?_
      dsimp only
      split
      · refine yields_pure (Nat.div_lt_of_lt_mul ?_)
        exact Nat.mul_lt_mul_of_pos_right hw hSize
      · exact ih

variable {tries least size : Nat}

/-- A number of a range that is drawn from words of sixty-four bits. -/
theorem yields_range64 (hSize : 0 < size) :
    Yields (range64 tries least size) fun n => least ≤ n ∧ n < least + size :=
  (yields_reject hSize yields_word64 _).bind fun _ hn => yields_pure (by omega)

/-- A number of a range that is drawn from words of thirty-two bits. -/
theorem yields_range32 (hSize : 0 < size) :
    Yields (range32 tries least size) fun n => least ≤ n ∧ n < least + size :=
  (yields_reject hSize yields_word32 _).bind fun _ hn => yields_pure (by omega)

/-- A byte of a range. -/
theorem yields_rangeByte (hSize : 0 < size) :
    Yields (rangeByte tries least size) fun n => least ≤ n ∧ n < least + size :=
  (yields_reject hSize yields_word32 _).bind fun _ hn => yields_pure (by omega)

theorem yields_anyByte : Yields anyByte (· < 256) :=
  yields_word32.bind fun w _ => yields_pure (Nat.mod_lt w (by decide))

/-- What is picked is an element, never the default. -/
theorem yields_pick {default : α} {items : List α} (hSome : items ≠ []) :
    Yields (pick tries default items) (· ∈ items) := by
  refine (yields_range64 (List.length_pos_iff.mpr hSome)).bind fun i hi => yields_pure ?_
  have hIndex : i < items.length := by omega
  rw [← List.getElem_eq_getD (h := hIndex)]
  exact List.getElem_mem hIndex

/-- As many results as were asked for, each with the property. -/
theorem yields_times (h : Yields draw P) (count : Nat) :
    Yields (times draw count) fun xs => xs.length = count ∧ ∀ x ∈ xs, P x := by
  induction count with
  | zero => exact yields_pure ⟨rfl, List.forall_mem_nil _⟩
  | succ count ih =>
      refine h.bind fun x hx => ih.bind fun xs hxs => yields_pure ?_
      exact ⟨congrArg Nat.succ hxs.1, List.forall_mem_cons.mpr ⟨hx, hxs.2⟩⟩

/-- One result for each element, in the same order. -/
theorem yields_forEach {draw : α → Draw β} {P : α → β → Prop} {xs : List α}
    (h : ∀ x ∈ xs, Yields (draw x) (P x)) : Yields (forEach draw xs) fun ys => List.Forall₂ P xs ys := by
  induction xs with
  | nil => exact yields_pure .nil
  | cons x xs ih =>
      obtain ⟨hHead, hTail⟩ := List.forall_mem_cons.mp h
      exact hHead.bind fun y hy => (ih hTail).bind fun ys hys => yields_pure (.cons hy hys)

/-- Whatever one draw takes from a stream, another one takes as well. -/
def Keeps (draw more : Draw α) : Prop :=
  ∀ (s : Stream) (result : α × Stream), draw s = some result → more s = some result

theorem Keeps.refl (draw : Draw α) : Keeps draw draw := fun _ _ h => h

theorem keeps_fail (more : Draw α) : Keeps (fun _ => none) more := fun _ _ h => nomatch h

/-- The second draw is made from the same stream on both sides, so it is enough that it keeps every result
of its own. -/
theorem Keeps.bind {draw more : Draw α} {next nextMore : α → Draw β} (hDraw : Keeps draw more)
    (hNext : ∀ x, Keeps (next x) (nextMore x)) : Keeps (draw >>= next) (more >>= nextMore) := by
  intro s result hRun
  obtain ⟨⟨x, middle⟩, hFirst, hSecond⟩ := Option.bind_eq_some_iff.mp hRun
  exact Option.bind_eq_some_iff.mpr ⟨(x, middle), hDraw s _ hFirst, hNext x middle result hSecond⟩

theorem Keeps.map {draw more : Draw α} (h : Keeps draw more) (f : α → β) :
    Keeps (draw >>= fun x => pure (f x)) (more >>= fun x => pure (f x)) :=
  h.bind fun x => .refl (pure (f x))

variable {more : Nat}

/-- A word that was accepted is accepted with more tries, and as the same result. -/
theorem keeps_reject (word : Draw Nat) (bits size zone : Nat) (h : tries ≤ more) :
    Keeps (reject word bits size zone tries) (reject word bits size zone more) := by
  induction tries generalizing more with
  | zero => exact keeps_fail _
  | succ tries ih =>
      obtain ⟨more, rfl⟩ : ∃ n, more = n + 1 := ⟨more - 1, by omega⟩
      refine (Keeps.refl word).bind fun w => ?_
      dsimp only
      split
      · exact .refl _
      · exact ih (by omega)

/-- A result within the smaller number of tries is the one of the greater. -/
theorem keeps_range64 (h : tries ≤ more) (least size : Nat) :
    Keeps (range64 tries least size) (range64 more least size) :=
  (keeps_reject _ _ _ _ h).map _

theorem keeps_range32 (h : tries ≤ more) (least size : Nat) :
    Keeps (range32 tries least size) (range32 more least size) :=
  (keeps_reject _ _ _ _ h).map _

theorem keeps_rangeByte (h : tries ≤ more) (least size : Nat) :
    Keeps (rangeByte tries least size) (rangeByte more least size) :=
  (keeps_reject _ _ _ _ h).map _

theorem keeps_pick (h : tries ≤ more) (default : α) (items : List α) :
    Keeps (pick tries default items) (pick more default items) :=
  (keeps_range64 h _ _).map _

/-- A repeated draw keeps its results if the one that is repeated does. -/
theorem keeps_times {draw more : Draw α} (h : Keeps draw more) (count : Nat) :
    Keeps (times draw count) (times more count) := by
  induction count with
  | zero => exact .refl _
  | succ count ih => exact h.bind fun x => ih.map (x :: ·)

theorem keeps_forEach {draw more : α → Draw β} (h : ∀ x, Keeps (draw x) (more x)) (xs : List α) :
    Keeps (forEach draw xs) (forEach more xs) := by
  induction xs with
  | nil => exact .refl _
  | cons x xs ih => exact (h x).bind fun y => ih.map (y :: ·)

/-- More tries never change a result. -/
def IsSteady (draw : Nat → Draw α) : Prop :=
  ∀ ⦃tries more : Nat⦄, tries ≤ more → Keeps (draw tries) (draw more)

/-- What the search finds is a result with some number of tries. -/
theorem exists_of_withEnough {result? : Nat → Option α} {tries : Nat} {x : α}
    (h : withEnough result? tries = some x) : ∃ enough, result? enough = some x := by
  refine withEnough.partial_correctness result? (fun _ x => ∃ enough, result? enough = some x) ?_ tries x h
  intro search ih tries x hFound
  split at hFound
  · rename_i hResult
    exact ⟨tries, hResult.trans hFound⟩
  · exact ih (tries + 1) x hFound

/-- The search finds the result that all numbers of tries agree on, from wherever it starts. -/
theorem withEnough_eq_some {result? : Nat → Option α}
    (hSteady : ∀ ⦃tries more : Nat⦄ ⦃x : α⦄, tries ≤ more → result? tries = some x → result? more = some x)
    {enough : Nat} {x : α} (h : result? enough = some x) (tries : Nat) :
    withEnough result? tries = some x := by
  -- The distance that is left to a number of tries that is enough.
  induction hLeft : enough - tries generalizing tries with
  | zero => rw [withEnough, hSteady (by omega : enough ≤ tries) h]
  | succ left ih =>
      rw [withEnough]
      split
      · rename_i hResult
        rw [← h, hSteady (by omega : tries ≤ enough) hResult]
      · exact ih (tries + 1) (by omega)

/-- What is drawn is what any number of tries draws, as soon as it is enough. -/
theorem drawn?_eq_some_iff {draw : Nat → Draw α} (hSteady : IsSteady draw) {s : Stream} {x : α} :
    drawn? draw s = some x ↔ ∃ tries, ((draw tries).run s).map Prod.fst = some x := by
  rw [drawn?, Option.map_eq_some_iff]
  constructor
  · rintro ⟨result, hFound, rfl⟩
    obtain ⟨tries, hRun⟩ := exists_of_withEnough hFound
    exact ⟨tries, Option.map_eq_some_iff.mpr ⟨result, hRun, rfl⟩⟩
  · rintro ⟨tries, hDrawn⟩
    obtain ⟨result, hRun, rfl⟩ := Option.map_eq_some_iff.mp hDrawn
    exact ⟨result, withEnough_eq_some (fun _ _ _ hLe hResult => hSteady hLe s _ hResult) hRun 1000, rfl⟩

/-- What some number of tries gives is what is drawn. -/
theorem drawn?_eq_of_run {draw : Nat → Draw α} (hSteady : IsSteady draw) {tries : Nat} {s rest : Stream}
    {x : α} (hRun : (draw tries).run s = some (x, rest)) : drawn? draw s = some x :=
  (drawn?_eq_some_iff hSteady).mpr ⟨tries, Option.map_eq_some_iff.mpr ⟨_, hRun, rfl⟩⟩

/-- Nothing is drawn just when no number of tries is enough. -/
theorem drawn?_eq_none_iff {draw : Nat → Draw α} (hSteady : IsSteady draw) {s : Stream} :
    drawn? draw s = none ↔ ∀ tries, (draw tries).run s = none := by
  constructor
  · intro hNone tries
    refine Option.eq_none_iff_forall_ne_some.mpr fun result hRun => ?_
    exact absurd (hNone.symm.trans (drawn?_eq_of_run hSteady hRun)) (by simp)
  · intro hNone
    refine Option.eq_none_iff_forall_ne_some.mpr fun x hFound => ?_
    obtain ⟨tries, hRun⟩ := (drawn?_eq_some_iff hSteady).mp hFound
    rw [hNone tries] at hRun
    exact absurd hRun (by simp)

end BanBoard.Random
