import ContainerHost.Config.Container
/-!
# What CPU time is worth

On a metered backend each millisecond of CPU time is worth the same amount of fuel, up to the
largest number of sixty-four bits. The milliseconds of a limit are recorded in sixty-four bits
before they are counted, though: a limit of more milliseconds is counted by what is left of them
then, and may grant less fuel than a shorter one.

What is proved: `fuelBudget_grows_iff`, for every limit that a container can be given. The budget is
what the limit is worth exactly if its milliseconds fit, or what is left of them is worth the
largest number anyway; and exactly then no shorter limit grants more. `fuelBudget_shrinks` is a
limit for which it is not so.
-/

namespace ContainerHost

namespace Duration

/-- The whole seconds of a span fit into sixty-four bits. -/
def InSeconds (d : Duration) : Prop := d.nanos < (1 <<< 64) * 1000000000

instance (d : Duration) : Decidable d.InSeconds := inferInstanceAs (Decidable (_ < _))

def worth (d : Duration) : Nat := min (d.wholeMillis * Limits.fuelPerMilli) Limits.wordMax

variable {d e : Duration}

theorem worth_mono (h : d.nanos ≤ e.nanos) : d.worth ≤ e.worth := by
  have hmillis := Nat.mul_le_mul_right Limits.fuelPerMilli (wholeMillis_mono h)
  unfold worth
  omega

/-- A span of more milliseconds than fit is worth the largest number. -/
theorem worth_of_past (h : 1 <<< 64 ≤ d.wholeMillis) : d.worth = Limits.wordMax := by
  have hmillis : 1 <<< 64 ≤ d.wholeMillis * Limits.fuelPerMilli :=
    Nat.le_trans h (Nat.le_mul_of_pos_right _ (by decide))
  have hword : Limits.wordMax ≤ 1 <<< 64 := Nat.sub_le _ _
  unfold worth
  omega

end Duration

namespace ContainerConfig

def limitedTo (c : ContainerConfig) (d : Duration) : ContainerConfig :=
  { c with maxCpuTime := some d }

variable {c : ContainerConfig} {d : Duration}

theorem fuelBudget_limitedTo :
    (c.limitedTo d).fuelBudget = min (d.recordedMillis * Limits.fuelPerMilli) Limits.wordMax := rfl

theorem fuelBudget_of_fits (h : d.wholeMillis < 1 <<< 64) :
    (c.limitedTo d).fuelBudget = d.worth := by
  rw [fuelBudget_limitedTo, Duration.recordedMillis, Nat.mod_eq_of_lt h, Duration.worth]

theorem fuelBudget_le_worth : (c.limitedTo d).fuelBudget ≤ d.worth := by
  have hrecorded : d.recordedMillis ≤ d.wholeMillis := Nat.mod_le _ _
  have hmillis := Nat.mul_le_mul_right Limits.fuelPerMilli hrecorded
  rw [fuelBudget_limitedTo, Duration.worth]
  omega

theorem fuelBudget_eq_worth_iff : (c.limitedTo d).fuelBudget = d.worth ↔
    d.wholeMillis < 1 <<< 64 ∨ Limits.wordMax ≤ d.recordedMillis * Limits.fuelPerMilli := by
  by_cases hfits : d.wholeMillis < 1 <<< 64
  · exact iff_of_true (fuelBudget_of_fits hfits) (.inl hfits)
  · rw [Duration.worth_of_past (Nat.le_of_not_lt hfits), fuelBudget_limitedTo]
    omega

/-- The longest limit whose milliseconds fit grants the largest number. -/
theorem fuelBudget_longest :
    (c.limitedTo (.millis (1 <<< 64 - 1))).fuelBudget = Limits.wordMax := by
  rw [fuelBudget_of_fits (by decide)]
  decide

/-- Whatever else a container may use, and however long its limit on the CPU time is: its budget is
what the limit is worth exactly if the milliseconds of the limit fit into sixty-four bits, or what
is left of them is worth the largest number; and that is so exactly if no shorter limit grants more.
-/
theorem fuelBudget_grows_iff (c : ContainerConfig) (d : Duration) :
    ((c.limitedTo d).fuelBudget = d.worth ↔
      d.wholeMillis < 1 <<< 64 ∨ Limits.wordMax ≤ d.recordedMillis * Limits.fuelPerMilli) ∧
    ((∀ e : Duration, e.nanos ≤ d.nanos →
        (c.limitedTo e).fuelBudget ≤ (c.limitedTo d).fuelBudget) ↔
      (c.limitedTo d).fuelBudget = d.worth) := by
  refine ⟨fuelBudget_eq_worth_iff, fun hgrows => ?_, fun hworth e he => ?_⟩
  · by_cases hfits : d.wholeMillis < 1 <<< 64
    · exact fuelBudget_of_fits hfits
    · -- the longest limit that fits is shorter, and grants what `d` is worth
      have hshorter : (Duration.millis (1 <<< 64 - 1)).nanos ≤ d.nanos := by
        change (1 <<< 64 - 1) * 1000000 ≤ d.nanos
        unfold Duration.wholeMillis at hfits
        omega
      have hmost := hgrows _ hshorter
      rw [fuelBudget_longest, ← Duration.worth_of_past (Nat.le_of_not_lt hfits)] at hmost
      exact Nat.le_antisymm fuelBudget_le_worth hmost
  · rw [hworth]
    exact Nat.le_trans fuelBudget_le_worth (Duration.worth_mono he)

/-- A limit whose milliseconds do not fit, and of which enough is left. -/
theorem fuelBudget_grows_past :
    let d := Duration.millis (1 <<< 64 + 184467440737096)
    d.InSeconds ∧ ¬ d.wholeMillis < 1 <<< 64 ∧ ∀ e : Duration, e.nanos ≤ d.nanos →
      (standard.limitedTo e).fuelBudget ≤ (standard.limitedTo d).fuelBudget := by
  intro d
  obtain ⟨hworth, hgrows⟩ := fuelBudget_grows_iff standard d
  exact ⟨by decide, by decide, hgrows.mpr (hworth.mpr (.inr (by decide)))⟩

/-- A limit of more than half a billion years grants less than a limit of one second. -/
theorem fuelBudget_shrinks :
    let short := Duration.seconds 1
    let long := Duration.seconds 18446744073709552
    short.nanos ≤ long.nanos ∧ long.InSeconds ∧
      (standard.limitedTo long).fuelBudget ≠ long.worth ∧
      ¬ (standard.limitedTo short).fuelBudget ≤ (standard.limitedTo long).fuelBudget := by
  decide

end ContainerConfig
end ContainerHost
