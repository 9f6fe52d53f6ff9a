import BanBoard.Time.Instant

/-!
The order of instants. It is total, of two instants the later one bounds both, and going back leads to
earlier ones.
-/

namespace BanBoard.Time.Instant

/-- Instants are compared by their seconds and then by their nanoseconds. -/
theorem le_iff {a b : Instant} :
    a.le b = true ↔ a.seconds < b.seconds ∨ (a.seconds = b.seconds ∧ a.nanos ≤ b.nanos) := by
  simp [le]

theorem le_refl (a : Instant) : a.le a = true := le_iff.mpr (Or.inr ⟨rfl, Nat.le_refl _⟩)

theorem le_trans {a b c : Instant} (hab : a.le b = true) (hbc : b.le c = true) :
    a.le c = true := by
  rw [le_iff] at hab hbc ⊢
  omega

theorem le_antisymm {a b : Instant} (hab : a.le b = true) (hba : b.le a = true) : a = b := by
  rw [le_iff] at hab hba
  have hSeconds : a.seconds = b.seconds := by omega
  have hNanos : a.nanos = b.nanos := by omega
  cases a
  simp_all

theorem le_total (a b : Instant) : a.le b = true ∨ b.le a = true := by
  rw [le_iff, le_iff]
  omega

theorem pairwise_mergeSort (times : List Instant) :
    (times.mergeSort le).Pairwise fun a b => a.le b = true := by
  have hTrans (a b c : Instant) (hab : a.le b = true) (hbc : b.le c = true) : a.le c = true :=
    le_trans hab hbc
  have hTotal (a b : Instant) : (a.le b || b.le a) = true := by
    rw [Bool.or_eq_true]
    exact le_total a b
  exact List.pairwise_mergeSort hTrans hTotal times

theorem le_latest_left (a b : Instant) : a.le (a.latest b) = true := by
  unfold latest
  split
  · assumption
  · exact le_refl a

theorem le_latest_right (a b : Instant) : b.le (a.latest b) = true := by
  unfold latest
  split
  · exact le_refl b
  · rename_i hNot
    exact (le_total a b).resolve_left hNot

theorem latest_eq_or (a b : Instant) : a.latest b = a ∨ a.latest b = b := by
  unfold latest
  split
  · exact Or.inr rfl
  · exact Or.inl rfl

theorem latest_le_iff {a b c : Instant} :
    (a.latest b).le c = true ↔ a.le c = true ∧ b.le c = true := by
  constructor
  · intro h
    exact ⟨le_trans (le_latest_left a b) h, le_trans (le_latest_right a b) h⟩
  · rintro ⟨ha, hb⟩
    rcases latest_eq_or a b with hEq | hEq <;> rwa [hEq]

/-- Instants before the same instants are the same. -/
theorem eq_of_forall_le_iff {a b : Instant} (h : ∀ c : Instant, a.le c = true ↔ b.le c = true) :
    a = b :=
  le_antisymm ((h b).mpr (le_refl b)) ((h a).mp (le_refl a))

theorem latest_comm (a b : Instant) : a.latest b = b.latest a :=
  eq_of_forall_le_iff fun c => by rw [latest_le_iff, latest_le_iff, and_comm]

theorem latest_right_comm (a b c : Instant) : (a.latest b).latest c = (a.latest c).latest b :=
  eq_of_forall_le_iff fun d => by simp only [latest_le_iff, and_right_comm]

/-- The first is the latest just when the second is no later. -/
theorem latest_eq_left_iff {a b : Instant} : a.latest b = a ↔ b.le a = true := by
  constructor
  · intro h
    exact h ▸ le_latest_right a b
  · intro h
    exact le_antisymm (latest_le_iff.mpr ⟨le_refl a, h⟩) (le_latest_left a b)

theorem earliest_le_right (a b : Instant) : (a.earliest b).le b = true := by
  unfold earliest
  split
  · assumption
  · exact le_refl b

theorem earliest_eq_or (a b : Instant) : a.earliest b = a ∨ a.earliest b = b := by
  unfold earliest
  split
  · exact Or.inl rfl
  · exact Or.inr rfl

/-- An instant can be represented within the first and the last second. -/
theorem isRepresentable_iff (t : Instant) : t.isRepresentable = true ↔
    firstSecond ≤ t.seconds ∧ t.seconds ≤ lastSecond ∧ t.nanos < 2 * nanosPerSecond := by
  simp [isRepresentable, and_assoc]

/-- Leaving a leap second is the only way to be a second ahead. -/
theorem seconds_addSeconds_bounds (t : Instant) (amount : Int) :
    t.seconds + amount ≤ (t.addSeconds amount).seconds ∧
      (t.addSeconds amount).seconds ≤ t.seconds + amount + 1 := by
  unfold addSeconds
  split
  · exact ⟨Int.le_refl _, Int.le_add_one (Int.le_refl _)⟩
  · split
    · exact ⟨Int.le_refl _, Int.le_add_one (Int.le_refl _)⟩
    · dsimp only
      omega

/-- Adding seconds can only end a leap second. -/
theorem nanos_addSeconds_le (t : Instant) (amount : Int) : (t.addSeconds amount).nanos ≤ t.nanos := by
  unfold addSeconds
  split
  · exact Nat.le_refl _
  · split <;> exact Nat.sub_le _ _

/-- A move that is one takes a whole second off the nanoseconds of a leap second. -/
theorem nanos_addSeconds_lt_iff (t : Instant) {amount : Int} (h : amount ≠ 0) :
    (t.addSeconds amount).nanos < 2 * nanosPerSecond ↔ t.nanos < 3 * nanosPerSecond := by
  have hMove : (amount == 0) = false := beq_eq_false_iff_ne.mpr h
  rw [addSeconds, hMove, Bool.or_false]
  unfold nanosPerSecond
  split
  · rename_i hPlain
    have hBelow := of_decide_eq_true hPlain
    dsimp only
    omega
  · split <;> (dsimp only; omega)

variable {t : Instant}

/-- Outside leap seconds, seconds are just added. -/
theorem addSeconds_eq (h : t.nanos < nanosPerSecond) (amount : Int) :
    t.addSeconds amount = ⟨t.seconds + amount, t.nanos⟩ := by
  rw [addSeconds, decide_eq_true h, Bool.true_or, if_pos rfl]

/-- The second by which going back from a leap second falls short. -/
def leapSecond (t : Instant) : Nat := if t.nanos < nanosPerSecond then 0 else 1

theorem leapSecond_eq_zero (h : t.nanos < nanosPerSecond) : t.leapSecond = 0 := if_pos h

theorem leapSecond_le (t : Instant) : t.leapSecond ≤ 1 := by
  unfold leapSecond
  split <;> decide

theorem nanos_sub_leapSecond_lt (hNanos : t.nanos < 2 * nanosPerSecond) :
    t.nanos - t.leapSecond * nanosPerSecond < nanosPerSecond := by
  unfold leapSecond
  split <;> omega

/-- Going back from a leap second, the second itself counts. -/
theorem addSeconds_back (t : Instant) {amount : Int} (h : amount < 0) :
    t.addSeconds amount =
      ⟨t.seconds + t.leapSecond + amount, t.nanos - t.leapSecond * nanosPerSecond⟩ := by
  have hMove : (amount == 0) = false := beq_eq_false_iff_ne.mpr (by omega)
  rw [addSeconds, hMove, Bool.or_false, if_neg (by omega : ¬0 < amount), leapSecond]
  by_cases hPlain : t.nanos < nanosPerSecond
  · simp [hPlain]
  · simp [hPlain]

/-- Going back in two steps is going back in one. -/
theorem addSeconds_addSeconds_back (hNanos : t.nanos < 2 * nanosPerSecond) {a b : Int} (ha : a ≤ 0)
    (hb : b < 0) : (t.addSeconds a).addSeconds b = t.addSeconds (a + b) := by
  obtain hBack | rfl := Int.lt_or_eq_of_le ha
  · rw [t.addSeconds_back hBack, addSeconds_eq (nanos_sub_leapSecond_lt hNanos),
      t.addSeconds_back (by omega : a + b < 0), Int.add_assoc]
  · have hStay : t.addSeconds 0 = t := by simp [addSeconds]
    rw [hStay, Int.zero_add]

/-- Going back further leads to an earlier instant. -/
theorem addSeconds_le_addSeconds (t : Instant) {a b : Int} (h : a ≤ b) (hBack : b < 0) :
    (t.addSeconds a).le (t.addSeconds b) = true := by
  rw [le_iff, t.addSeconds_back (Int.lt_of_le_of_lt h hBack), t.addSeconds_back hBack]
  dsimp only
  omega

end BanBoard.Time.Instant
